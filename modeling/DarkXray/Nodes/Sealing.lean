import DarkXray.Nodes.Envelope

/-!
# Stored desired states

The Hub keeps the configuration of a Node as canonical JSON: the keys of every object
ascend, and the contents of the managed files are encrypted.  The hash is that of the
canonical text with the contents in the clear.

Main results:

- Theorem {lit}`openPayload_sealPayload`: a stored configuration opens to one with the same
  canonical form, hence with the same hash.
-/

namespace DarkXray
namespace Nodes

open Library Policy

/-- No object has two fields of the same name where the Hub looks, and no managed file
comes with encrypted contents. -/
structure Plain (d : Doc Scalar) : Prop where
  keys : d.keys.Nodup
  fileKeys : ∀ item ∈ d.itemsAt "files", item.keys.Nodup
  files : ∀ item ∈ d.itemsAt "files", item.get? "data_enc" = none

/-! ## Sealing and opening -/

/-- The cipher of the Hub; an encryption takes a fresh nonce. -/
structure FileCipher where
  encrypt : ℕ → String → String
  decrypt : String → Option String
  decrypt_encrypt : ∀ nonce s, decrypt (encrypt nonce s) = some s

/-- The contents of one managed file are encrypted. -/
def sealItem (c : FileCipher) (nonce : ℕ) (item : Doc Scalar) : Except Failure (Doc Scalar) :=
  match item.get? "data" with
  | none => .ok item
  | some raw => do
      let raw ← need (textOf raw) "Invalid managed Node file payload"
      return (item.erase "data").set "data_enc" (textDoc (c.encrypt nonce raw))

/-- The loop over the managed files. -/
def sealItems (c : FileCipher) (nonce : ℕ) : List (Doc Scalar) → Except Failure (List (Doc Scalar))
  | [] => .ok []
  | item :: items => do
      let first ← sealItem c nonce item
      let rest ← sealItems c (nonce + 1) items
      return first :: rest

/-- {lit}`_seal_desired_payload`; the stored text is represented by its document. -/
def sealPayload (c : FileCipher) (nonce : ℕ) (value : Doc Scalar) : Except Failure (Doc Scalar) :=
  match value.get? "files" with
  | some (.list items) => do
      let items ← sealItems c nonce items
      return (value.set "files" (.list items)).canonical
  | _ => .ok value.canonical

/-- The contents of one managed file are decrypted. -/
def openItem (c : FileCipher) (item : Doc Scalar) : Except Failure (Doc Scalar) :=
  match item.get? "data_enc" with
  | none => .ok item
  | some enc => do
      let enc ← need (textOf enc) "Persisted Node file secret is invalid"
      let raw ← need (c.decrypt enc) "Persisted Node file secret cannot be decrypted"
      return (item.erase "data_enc").set "data" (textDoc raw)

/-- The loop over the stored files. -/
def openItems (c : FileCipher) : List (Doc Scalar) → Except Failure (List (Doc Scalar))
  | [] => .ok []
  | item :: items => do
      let first ← openItem c item
      let rest ← openItems c items
      return first :: rest

/-- {lit}`_open_desired_payload`. -/
def openPayload (c : FileCipher) (raw : Doc Scalar) : Except Failure (Doc Scalar) := do
  check (raw.isDict = true) "Persisted Node desired state is invalid"
  match raw.get? "files" with
  | some (.list items) => (openItems c items).map fun items => raw.set "files" (.list items)
  | _ => .ok raw

/-! ## What a stored file opens to -/

/-- A document that opens to the canonical form of another one. -/
def OpensTo (c : FileCipher) (sealed item : Doc Scalar) : Prop :=
  ∃ o, openItem c sealed.canonical = .ok o ∧ o.canonical = item.canonical ∧
    o.keys.Nodup ∧ o.get? "data_enc" = none

/-- An item without a key opens to itself. -/
theorem opensTo_self {c : FileCipher} {item : Doc Scalar} (hkeys : item.keys.Nodup)
    (hplain : item.get? "data_enc" = none) : OpensTo c item item := by
  have hget : item.canonical.get? "data_enc" = none := by
    rw [Doc.get?_canonical hkeys, hplain]
    rfl
  refine ⟨item.canonical, ?_, Doc.canonical_canonical item, Doc.keys_canonical_nodup hkeys, hget⟩
  simp only [openItem, hget]

/-- A sealed file opens to its own contents. -/
theorem opensTo_sealItem {c : FileCipher} {nonce : ℕ} {item sealed : Doc Scalar}
    (hkeys : item.keys.Nodup) (hplain : item.get? "data_enc" = none)
    (h : sealItem c nonce item = .ok sealed) :
    OpensTo c sealed item := by
  unfold sealItem at h
  cases hdata : item.get? "data" with
  | none =>
      simp only [hdata, Except.ok.injEq] at h
      exact h ▸ opensTo_self hkeys hplain
  | some raw =>
      simp only [hdata] at h
      obtain ⟨text, htext, h⟩ := except_bind_ok_iff.mp h
      obtain rfl := except_pure_ok_iff.mp h
      have hraw : raw = textDoc text := by
        refine textOf_eq_some_iff.mp ?_
        cases hread : textOf raw with
        | none =>
            rw [hread] at htext
            cases htext
        | some t =>
            rw [hread] at htext
            exact congrArg some (Except.ok.inj htext)
      obtain ⟨fields, rfl, -, hdata⟩ := Doc.dict_of_get? hdata
      have hout : "data_enc" ∉ fields.map Prod.fst := Doc.field?_eq_none_iff.mp hplain
      obtain ⟨opened, hopened, hnodup, habsent, hcanonical⟩ :=
        Doc.canonical_rename hkeys hout hdata (textDoc (c.encrypt nonce text))
      have henc : (((Doc.dict fields).erase "data").set "data_enc"
          (textDoc (c.encrypt nonce text))).canonical.get? "data_enc" =
            some (textDoc (c.encrypt nonce text)) := by
        rw [Doc.get?_canonical (Doc.nodup_keys_set (Doc.nodup_keys_erase hkeys _) _ _),
          Doc.get?_set (by rw [Doc.isDict_erase]; rfl), if_pos rfl, Option.map_some,
          canonical_textDoc]
      refine ⟨.dict opened, ?_, hcanonical, hnodup, Doc.field?_eq_none_iff.mpr habsent⟩
      simp only [openItem, henc]
      refine except_bind_ok_iff.mpr ⟨c.encrypt nonce text, rfl, ?_⟩
      refine except_bind_ok_iff.mpr ⟨text, by rw [c.decrypt_encrypt]; rfl, ?_⟩
      rw [← hopened, hraw]
      rfl

/-- The loop over the stored files undoes the one that sealed them. -/
theorem openItems_sealItems {c : FileCipher} {items sealed : List (Doc Scalar)} {nonce : ℕ}
    (hkeys : ∀ item ∈ items, item.keys.Nodup)
    (hplain : ∀ item ∈ items, item.get? "data_enc" = none)
    (h : sealItems c nonce items = .ok sealed) :
    ∃ opened, openItems c (sealed.map Doc.canonical) = .ok opened ∧
      opened.map Doc.canonical = items.map Doc.canonical ∧
      ∀ o ∈ opened, o.keys.Nodup ∧ o.get? "data_enc" = none := by
  induction items generalizing nonce sealed with
  | nil =>
      cases h
      exact ⟨[], rfl, rfl, by simp⟩
  | cons item items ih =>
      unfold sealItems at h
      obtain ⟨first, hfirst, h⟩ := except_bind_ok_iff.mp h
      obtain ⟨rest, hrest, h⟩ := except_bind_ok_iff.mp h
      obtain rfl := except_pure_ok_iff.mp h
      obtain ⟨o, ho, hcanonical, hnodup, habsent⟩ :=
        opensTo_sealItem (hkeys item List.mem_cons_self) (hplain item List.mem_cons_self) hfirst
      obtain ⟨opened, hopened, hsame, hall⟩ :=
        ih (fun i hi => hkeys i (List.mem_cons_of_mem _ hi))
          (fun i hi => hplain i (List.mem_cons_of_mem _ hi)) hrest
      refine ⟨o :: opened, ?_, by simp [hcanonical, hsame], ?_⟩
      · rw [List.map_cons, openItems, ho, hopened]
        rfl
      · intro i hi
        rcases List.mem_cons.mp hi with rfl | hi
        · exact ⟨hnodup, habsent⟩
        · exact hall i hi

/-- An assignment to another field leaves the managed files alone. -/
theorem Plain.set {d : Doc Scalar} (h : Plain d) {key : String} (hkey : key ≠ "files")
    (v : Doc Scalar) : Plain (d.set key v) := by
  have hitems : (d.set key v).itemsAt "files" = d.itemsAt "files" := by
    rw [Doc.itemsAt, Doc.get?_set_of_ne _ hkey, Doc.itemsAt]
  refine ⟨Doc.nodup_keys_set h.keys key v, ?_, ?_⟩
  · rw [hitems]
    exact h.fileKeys
  · rw [hitems]
    exact h.files

theorem itemsAt_of_list {d : Doc Scalar} {key : String} {items : List (Doc Scalar)}
    (h : d.get? key = some (.list items)) : d.itemsAt key = items := by
  simp [Doc.itemsAt, h, Doc.list?]

theorem Plain.canonical {d : Doc Scalar} (h : Plain d) : Plain d.canonical := by
  refine ⟨Doc.keys_canonical_nodup h.keys, ?_, ?_⟩
  · intro item hitem
    rw [Doc.itemsAt_canonical h.keys] at hitem
    obtain ⟨i, hi, rfl⟩ := List.mem_map.mp hitem
    exact Doc.keys_canonical_nodup (h.fileKeys i hi)
  · intro item hitem
    rw [Doc.itemsAt_canonical h.keys] at hitem
    obtain ⟨i, hi, rfl⟩ := List.mem_map.mp hitem
    rw [Doc.get?_canonical (h.fileKeys i hi), h.files i hi]
    rfl

/-- A stored configuration opens to one with the same canonical form. -/
theorem openPayload_sealPayload {c : FileCipher} {nonce : ℕ} {value stored : Doc Scalar}
    (hdict : value.isDict = true) (hplain : Plain value)
    (h : sealPayload c nonce value = .ok stored) :
    ∃ opened, openPayload c stored = .ok opened ∧ opened.canonical = value.canonical ∧
      Plain opened := by
  unfold sealPayload at h
  split at h
  · next items hitems =>
    obtain ⟨sealed, hsealed, h⟩ := except_bind_ok_iff.mp h
    obtain rfl := except_pure_ok_iff.mp h
    have hat := itemsAt_of_list hitems
    obtain ⟨opened, hopened, hsame, hall⟩ := openItems_sealItems
      (fun i hi => hplain.fileKeys i (hat ▸ hi)) (fun i hi => hplain.files i (hat ▸ hi)) hsealed
    have hput : (value.set "files" (.list sealed)).get? "files" = some (.list sealed) := by
      rw [Doc.get?_set hdict, if_pos rfl]
    have hputKeys : (value.set "files" (.list sealed)).keys.Nodup :=
      Doc.nodup_keys_set hplain.keys _ _
    have hisDict : (value.set "files" (.list sealed)).canonical.isDict = true := by
      rw [Doc.isDict_canonical, Doc.isDict_set, hdict]
    have hstored : (value.set "files" (.list sealed)).canonical.get? "files" =
        some (.list (sealed.map Doc.canonical)) := by
      rw [Doc.get?_canonical hputKeys, hput, Option.map_some, Doc.canonical_list]
    refine ⟨(value.set "files" (.list sealed)).canonical.set "files" (.list opened), ?_, ?_, ?_⟩
    · rw [openPayload, check, ensure, if_pos hisDict]
      simp only [hstored, hopened]
      rfl
    · have hlist : (Doc.list opened).canonical = (Doc.list items).canonical := by
        rw [Doc.canonical_list, Doc.canonical_list, hsame]
      rw [Doc.canonical_set_canonical hputKeys, Doc.set_set]
      exact Doc.canonical_set_same hitems hlist
    · have hitems' : ((value.set "files" (.list sealed)).canonical.set "files"
          (.list opened)).itemsAt "files" = opened := Doc.itemsAt_set hisDict _ _
      refine ⟨Doc.nodup_keys_set (Doc.keys_canonical_nodup hputKeys) _ _, ?_, ?_⟩
      · rw [hitems']
        exact fun i hi => (hall i hi).1
      · rw [hitems']
        exact fun i hi => (hall i hi).2
  · next hnone =>
    cases h
    refine ⟨value.canonical, ?_, Doc.canonical_canonical value, hplain.canonical⟩
    rw [openPayload, check, ensure, if_pos ((Doc.isDict_canonical value).trans hdict)]
    rw [Doc.get?_canonical hplain.keys]
    cases hget : value.get? "files" with
    | none => rfl
    | some v =>
        cases v with
        | list items => exact absurd hget (hnone items)
        | atom a =>
            rw [Option.map_some, Doc.canonical_atom]
            rfl
        | dict fields =>
            rw [Option.map_some, Doc.canonical_dict]
            rfl

end Nodes
end DarkXray
