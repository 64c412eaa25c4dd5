import DarkXray.Library.Documents
import DarkXray.Library.KeyOrder

/-!
# Canonical documents

A document whose objects have distinct keys has one form in which the keys of every object
ascend.  Assigning a field and taking this form go together.

Main results:

- Theorem {lit}`Doc.canonical_canonical`: canonical documents stay as they are.
- Theorem {lit}`Doc.get?_canonical`: the fields of a canonical document.
- Theorem {lit}`Doc.canonical_set_canonical`: a field may be assigned before or after.
- Theorem {lit}`Doc.canonical_rename`: renaming a field and renaming it back loses nothing.
-/

namespace DarkXray
namespace Library
namespace Doc

variable {α : Type}

mutual

/-- The document with the keys of every object in ascending order. -/
def canonical : Doc α → Doc α
  | atom a => atom a
  | list items => list (canonicalItems items)
  | dict fields => dict (byKey (canonicalFields fields))

/-- The items of an array. -/
def canonicalItems : List (Doc α) → List (Doc α)
  | [] => []
  | d :: items => canonical d :: canonicalItems items

/-- The fields of an object, not yet in their order. -/
def canonicalFields : List (String × Doc α) → List (String × Doc α)
  | [] => []
  | (key, d) :: fields => (key, canonical d) :: canonicalFields fields

end

/-- The items of a list are put into canonical form one by one. -/
theorem canonicalItems_eq (items : List (Doc α)) : canonicalItems items = items.map canonical := by
  induction items with
  | nil => simp [canonicalItems]
  | cons d items ih => simp [canonicalItems, ih]

/-- The fields of an object in their canonical form. -/
def inForm (fields : List (String × Doc α)) : List (String × Doc α) :=
  fields.map fun e => (e.1, e.2.canonical)

/-- The values of fields are put into canonical form one by one. -/
theorem canonicalFields_eq (fields : List (String × Doc α)) :
    canonicalFields fields = inForm fields := by
  induction fields with
  | nil => simp [canonicalFields, inForm]
  | cons e fields ih => simp [canonicalFields, ih, inForm]

/-- An atom is canonical. -/
@[simp]
theorem canonical_atom (a : α) : (atom a).canonical = atom a := by
  rw [canonical]

/-- The canonical form of a list. -/
theorem canonical_list (items : List (Doc α)) :
    (list items).canonical = list (items.map canonical) := by
  rw [canonical, canonicalItems_eq]

/-- The canonical form of a dictionary: its fields in order, with canonical values. -/
theorem canonical_dict (fields : List (String × Doc α)) :
    (dict fields).canonical = dict (byKey (inForm fields)) := by
  rw [canonical, canonicalFields_eq]

mutual

/-- Canonical documents stay as they are. -/
theorem canonical_canonical : ∀ d : Doc α, d.canonical.canonical = d.canonical
  | atom a => by rw [canonical_atom, canonical_atom]
  | list items => by rw [canonical, canonical, canonicalItems_idem items]
  | dict fields => by
      have hcomm : canonicalFields (byKey (canonicalFields fields)) =
          byKey (canonicalFields (canonicalFields fields)) := by
        rw [canonicalFields_eq (byKey _), canonicalFields_eq (canonicalFields fields)]
        exact byKey_mapValues _ (fun e : String × Doc α => (e.1, e.2.canonical)) fun _ => rfl
      rw [canonical, canonical, hcomm, canonicalFields_idem fields, byKey_byKey]

/-- Canonical items stay as they are. -/
theorem canonicalItems_idem : ∀ items : List (Doc α),
    canonicalItems (canonicalItems items) = canonicalItems items
  | [] => by simp [canonicalItems]
  | d :: items => by
      simp only [canonicalItems]
      rw [canonical_canonical d, canonicalItems_idem items]

/-- Canonical values stay as they are. -/
theorem canonicalFields_idem : ∀ fields : List (String × Doc α),
    canonicalFields (canonicalFields fields) = canonicalFields fields
  | [] => by simp [canonicalFields]
  | (key, d) :: fields => by
      simp only [canonicalFields]
      rw [canonical_canonical d, canonicalFields_idem fields]

end

/-! ## Fields -/

/-- Canonical values leave the keys. -/
theorem inForm_keys (fields : List (String × Doc α)) :
    (inForm fields).map Prod.fst = fields.map Prod.fst := by
  simp [inForm, List.map_map, Function.comp_def]

/-- Values that are in form stay as they are. -/
theorem inForm_inForm (fields : List (String × Doc α)) :
    inForm (inForm fields) = inForm fields := by
  simp [inForm, List.map_map, Function.comp_def, canonical_canonical]

/-- Fields are put into form one by one. -/
theorem inForm_append (fields fields' : List (String × Doc α)) :
    inForm (fields ++ fields') = inForm fields ++ inForm fields' :=
  List.map_append

/-- Putting the values into form respects the order of the fields. -/
theorem inForm_perm {fields fields' : List (String × Doc α)} (h : fields.Perm fields') :
    (inForm fields).Perm (inForm fields') :=
  h.map _

/-- Putting the values into form commutes with sorting the fields. -/
theorem inForm_byKey (fields : List (String × Doc α)) :
    inForm (byKey fields) = byKey (inForm fields) :=
  byKey_mapValues _ (fun e : String × Doc α => (e.1, e.2.canonical)) fun _ => rfl

/-- A field is looked up by its key. -/
theorem field?_eq_lookup (fields : List (String × Doc α)) (key : String) :
    field? fields key = fields.lookup key := by
  induction fields with
  | nil => rfl
  | cons field fields ih =>
      rw [field?_cons, List.lookup_cons, ih]
      by_cases h : field.1 = key
      · simp [h]
      · have hbeq : (key == field.1) = false := by simpa using Ne.symm h
        rw [if_neg h, hbeq]

/-- A field is missing exactly if its key is. -/
theorem field?_eq_none_iff {fields : List (String × Doc α)} {key : String} :
    field? fields key = none ↔ key ∉ fields.map Prod.fst := by
  rw [field?_eq_lookup, lookup_eq_none_iff]

/-- The fields of a canonical document are those of the document, in their canonical form. -/
theorem get?_canonical {d : Doc α} (hd : d.keys.Nodup) (key : String) :
    d.canonical.get? key = (d.get? key).map canonical := by
  cases d with
  | atom a => rw [canonical_atom]; rfl
  | list items => rw [canonical_list]; rfl
  | dict fields =>
      have hkeys : ((inForm fields).map Prod.fst).Nodup := by
        rw [inForm_keys]
        exact hd
      rw [canonical_dict]
      calc field? (byKey (inForm fields)) key
          = (byKey (inForm fields)).lookup key := field?_eq_lookup _ _
        _ = (inForm fields).lookup key := (lookup_eq_of_perm hkeys (perm_byKey _).symm key).symm
        _ = (fields.lookup key).map canonical := lookup_mapValues fields canonical key
        _ = (field? fields key).map canonical := by rw [field?_eq_lookup]

/-- The canonical form repeats no key if the document does not. -/
theorem keys_canonical_nodup {d : Doc α} (hd : d.keys.Nodup) : d.canonical.keys.Nodup := by
  cases d with
  | atom a => simp [keys]
  | list items => simp [canonical_list, keys]
  | dict fields =>
      rw [canonical_dict]
      refine nodup_keys_byKey.mpr ?_
      rw [inForm_keys]
      exact hd

/-- The canonical form of a dictionary is one. -/
@[simp]
theorem isDict_canonical (d : Doc α) : d.canonical.isDict = d.isDict := by
  cases d <;> simp [canonical, isDict]

/-- The items of a field in the canonical form. -/
theorem itemsAt_canonical {d : Doc α} (hd : d.keys.Nodup) (key : String) :
    d.canonical.itemsAt key = (d.itemsAt key).map canonical := by
  unfold itemsAt
  rw [get?_canonical hd]
  cases d.get? key with
  | none => rfl
  | some v => cases v <;> simp [canonical, canonicalItems_eq, list?]

/-- Only an object has a field. -/
theorem dict_of_get? {d : Doc α} {key : String} {v : Doc α} (h : d.get? key = some v) :
    ∃ fields, d = dict fields ∧ key ∈ fields.map Prod.fst ∧ field? fields key = some v := by
  cases d with
  | atom a => cases h
  | list items => cases h
  | dict fields =>
      refine ⟨fields, rfl, ?_, h⟩
      by_contra hout
      rw [get?, field?_eq_none_iff.mpr hout] at h
      cases h

/-! ## Assigned fields -/

/-- A field is set at the front or behind it. -/
theorem setField_cons (field : String × Doc α) (fields : List (String × Doc α)) (key : String)
    (v : Doc α) : setField key v (field :: fields) =
      if field.1 = key then (key, v) :: fields else field :: setField key v fields :=
  rfl

/-- Setting a field that is there leaves the keys. -/
theorem setField_keys_of_mem {fields : List (String × Doc α)} {key : String} {v : Doc α}
    (h : key ∈ fields.map Prod.fst) :
    (setField key v fields).map Prod.fst = fields.map Prod.fst := by
  induction fields with
  | nil => cases h
  | cons field fields ih =>
      rw [setField_cons]
      by_cases hkey : field.1 = key
      · simp [hkey]
      · rw [if_neg hkey, List.map_cons, List.map_cons, ih]
        simpa [Ne.symm hkey] using h

/-- A new field is set at the end. -/
theorem setField_of_notMem {fields : List (String × Doc α)} {key : String} {v : Doc α}
    (h : key ∉ fields.map Prod.fst) : setField key v fields = fields ++ [(key, v)] := by
  induction fields with
  | nil => rfl
  | cons field fields ih =>
      rw [List.map_cons, List.mem_cons, not_or] at h
      rw [setField_cons, if_neg (Ne.symm h.1), ih h.2, List.cons_append]

/-- The last value that is set for a field counts. -/
theorem setField_setField (fields : List (String × Doc α)) (key : String) (v w : Doc α) :
    setField key w (setField key v fields) = setField key w fields := by
  induction fields with
  | nil => simp [setField]
  | cons field fields ih =>
      rw [setField_cons, setField_cons]
      by_cases hkey : field.1 = key
      · simp [hkey, setField_cons]
      · rw [if_neg hkey, if_neg hkey, setField_cons, if_neg hkey, ih]

/-- Setting a field commutes with putting the values into form. -/
theorem inForm_setField (fields : List (String × Doc α)) (key : String) (v : Doc α) :
    inForm (setField key v fields) = setField key v.canonical (inForm fields) := by
  induction fields with
  | nil => rfl
  | cons field fields ih =>
      have hcons : inForm (field :: fields) = (field.1, field.2.canonical) :: inForm fields := rfl
      rw [setField_cons, hcons, setField_cons, ← ih]
      by_cases hkey : field.1 = key
      · rw [if_pos hkey, if_pos hkey]
        rfl
      · rw [if_neg hkey, if_neg hkey]
        rfl

/-- Two orders of the same fields stay so. -/
theorem setField_perm {fields fields' : List (String × Doc α)} {key : String} {v : Doc α}
    (hkeys : (fields.map Prod.fst).Nodup) (h : fields.Perm fields') :
    (setField key v fields).Perm (setField key v fields') := by
  -- with distinct keys, each entry of the key is the only one
  have hmap : ∀ l : List (String × Doc α), (l.map Prod.fst).Nodup → key ∈ l.map Prod.fst →
      setField key v l = l.map fun e => if e.1 = key then (key, v) else e := by
    intro l hl hmem
    induction l with
    | nil => cases hmem
    | cons e l ih =>
        rw [List.map_cons, List.nodup_cons] at hl
        rw [setField_cons, List.map_cons]
        by_cases he : e.1 = key
        · have hrest : l.map (fun e => if e.1 = key then (key, v) else e) = l.map id := by
            refine List.map_congr_left fun x hx => if_neg ?_
            rintro rfl
            exact hl.1 (he ▸ List.mem_map_of_mem hx)
          rw [if_pos he, if_pos he, hrest, List.map_id]
        · rw [if_neg he, if_neg he, ih hl.2]
          simpa [Ne.symm he] using hmem
  have hkeys' : (fields'.map Prod.fst).Nodup := (h.map Prod.fst).nodup_iff.mp hkeys
  by_cases hmem : key ∈ fields.map Prod.fst
  · rw [hmap fields hkeys hmem, hmap fields' hkeys' ((h.map Prod.fst).mem_iff.mp hmem)]
    exact h.map _
  · rw [setField_of_notMem hmem,
      setField_of_notMem fun hmem' => hmem ((h.map Prod.fst).mem_iff.mpr hmem')]
    exact h.append_right _

/-- The later of two assignments counts. -/
theorem set_set (d : Doc α) (key : String) (v w : Doc α) :
    (d.set key v).set key w = d.set key w := by
  cases d with
  | atom a => rfl
  | list items => rfl
  | dict fields => exact congrArg dict (setField_setField fields key v w)

/-- Setting a field repeats no key. -/
theorem nodup_keys_set {d : Doc α} (hd : d.keys.Nodup) (key : String) (v : Doc α) :
    (d.set key v).keys.Nodup := by
  cases d with
  | atom a => exact hd
  | list items => exact hd
  | dict fields =>
      change ((setField key v fields).map Prod.fst).Nodup
      by_cases hmem : key ∈ fields.map Prod.fst
      · rw [setField_keys_of_mem hmem]
        exact hd
      · rw [setField_of_notMem hmem, List.map_append]
        refine List.nodup_append'.mpr ⟨hd, by simp, ?_⟩
        intro k hk hk'
        obtain rfl : k = key := by simpa using hk'
        exact hmem hk

/-- Erasing a field repeats no key. -/
theorem nodup_keys_erase {d : Doc α} (hd : d.keys.Nodup) (key : String) :
    (d.erase key).keys.Nodup := by
  cases d with
  | atom a => exact hd
  | list items => exact hd
  | dict fields => exact hd.sublist (List.filter_sublist.map Prod.fst)

/-- A field may be assigned before or after a document is brought into its canonical form. -/
theorem canonical_set_canonical {d : Doc α} (hd : d.keys.Nodup) (key : String) (v : Doc α) :
    (d.canonical.set key v).canonical = (d.set key v).canonical := by
  cases d with
  | atom a => rw [canonical_atom]
  | list items => exact canonical_canonical _
  | dict fields =>
      have hkeys : ((inForm fields).map Prod.fst).Nodup := by
        rw [inForm_keys]
        exact hd
      have hset : ((dict (setField key v fields)).keys).Nodup := nodup_keys_set hd key v
      have hset' : ((setField key v.canonical (inForm fields)).map Prod.fst).Nodup := by
        rw [← inForm_setField, inForm_keys]
        exact hset
      have hperm : (setField key v.canonical (byKey (inForm fields))).Perm
          (setField key v.canonical (inForm fields)) :=
        (setField_perm hkeys (perm_byKey _).symm).symm
      rw [canonical_dict]
      change (dict (setField key v (byKey (inForm fields)))).canonical =
        (dict (setField key v fields)).canonical
      rw [canonical_dict, canonical_dict, inForm_setField, inForm_setField, inForm_byKey,
        inForm_inForm, byKey_eq_of_perm hset' hperm.symm]

/-- Replacing a field by one with the same canonical form keeps the canonical form. -/
theorem canonical_set_same {d : Doc α} {key : String} {v w : Doc α} (hget : d.get? key = some v)
    (h : w.canonical = v.canonical) : (d.set key w).canonical = d.canonical := by
  have hsame : (d.set key w).canonical = (d.set key v).canonical := by
    obtain ⟨fields, rfl, -, -⟩ := dict_of_get? hget
    change (dict (setField key w fields)).canonical = (dict (setField key v fields)).canonical
    rw [canonical_dict, canonical_dict, inForm_setField, inForm_setField, h]
  rw [hsame, set_of_get? hget]

/-! ## Renamed fields -/

/-- A field that is not there need not be removed. -/
theorem filter_absent {fields : List (String × Doc α)} {key : String}
    (h : key ∉ fields.map Prod.fst) : fields.filter (fun e => e.1 ≠ key) = fields := by
  refine List.filter_eq_self.mpr fun e he => ?_
  have hne : e.1 ≠ key := by
    rintro rfl
    exact h (List.mem_map_of_mem he)
  simpa using hne

/-- A field that is removed is gone. -/
theorem key_notMem_filter (fields : List (String × Doc α)) (key : String) :
    key ∉ (fields.filter fun e => e.1 ≠ key).map Prod.fst := by
  intro h
  obtain ⟨e, he, hkey⟩ := List.mem_map.mp h
  have hne := (List.mem_filter.mp he).2
  simp [hkey] at hne

/-- A field that is removed from the others and assigned under a name that none of them has. -/
theorem erase_set {fields : List (String × Doc α)} {a b : String} (hb : b ∉ fields.map Prod.fst)
    (w : Doc α) : ((dict fields).erase a).set b w =
      dict (fields.filter (fun e => e.1 ≠ a) ++ [(b, w)]) := by
  have hout : b ∉ (fields.filter fun e => e.1 ≠ a).map Prod.fst := fun h =>
    hb ((List.filter_sublist.map Prod.fst).subset h)
  exact congrArg dict (setField_of_notMem hout)

/-- Renaming a field and renaming it back in the canonical form loses nothing. -/
theorem canonical_rename {fields : List (String × Doc α)} {a b : String}
    (hkeys : (fields.map Prod.fst).Nodup) (hb : b ∉ fields.map Prod.fst) {v : Doc α}
    (hv : field? fields a = some v) (w : Doc α) :
    ∃ opened : List (String × Doc α),
      ((((dict fields).erase a).set b w).canonical.erase b).set a v = dict opened ∧
      (opened.map Prod.fst).Nodup ∧ b ∉ opened.map Prod.fst ∧
      (dict opened).canonical = (dict fields).canonical := by
  have hlookup : fields.lookup a = some v := by rw [← field?_eq_lookup, hv]
  generalize hS : inForm (fields.filter fun e => e.1 ≠ a) ++ [(b, w.canonical)] = S
  have hsealed : (((dict fields).erase a).set b w).canonical = dict (byKey S) := by
    rw [erase_set hb, canonical_dict, ← hS, inForm_append]
    rfl
  have habsent : b ∉ (inForm (fields.filter fun e => e.1 ≠ a)).map Prod.fst := by
    rw [inForm_keys]
    exact fun h => hb ((List.filter_sublist.map Prod.fst).subset h)
  have hrest : ((byKey S).filter fun e => e.1 ≠ b).Perm
      (inForm (fields.filter fun e => e.1 ≠ a)) := by
    have hfilter := (perm_byKey S).filter fun e => e.1 ≠ b
    have hS' : S.filter (fun e => e.1 ≠ b) = inForm (fields.filter fun e => e.1 ≠ a) := by
      rw [← hS, List.filter_append, filter_absent habsent]
      simp
    exact hS' ▸ hfilter
  have hout : a ∉ ((byKey S).filter fun e => e.1 ≠ b).map Prod.fst := by
    rw [(hrest.map Prod.fst).mem_iff, inForm_keys]
    exact key_notMem_filter fields a
  have hperm : (((byKey S).filter fun e => e.1 ≠ b) ++ [(a, v)]).map Prod.fst |>.Perm
      (fields.map Prod.fst) := by
    have hleft := hrest.map Prod.fst
    rw [inForm_keys] at hleft
    have hall := (perm_others_append hkeys hlookup).map Prod.fst
    rw [List.map_append] at hall ⊢
    exact (hleft.append_right _).trans hall
  refine ⟨((byKey S).filter fun e => e.1 ≠ b) ++ [(a, v)], ?_, hperm.nodup_iff.mpr hkeys, ?_, ?_⟩
  · rw [hsealed]
    exact congrArg dict (setField_of_notMem hout)
  · rw [hperm.mem_iff]
    exact hb
  · rw [canonical_dict, canonical_dict, dict.injEq]
    have hfields : (inForm (((byKey S).filter fun e => e.1 ≠ b) ++ [(a, v)])).Perm
        (inForm fields) := by
      have hhead : (inForm ((byKey S).filter fun e => e.1 ≠ b)).Perm
          (inForm (fields.filter fun e => e.1 ≠ a)) := by
        have hmapped := inForm_perm hrest
        rwa [inForm_inForm] at hmapped
      have hall := inForm_perm (perm_others_append hkeys hlookup)
      rw [inForm_append] at hall ⊢
      exact (hhead.append_right _).trans hall
    refine byKey_eq_of_perm ?_ hfields
    rw [inForm_keys]
    exact hperm.nodup_iff.mpr hkeys

end Doc
end Library
end DarkXray
