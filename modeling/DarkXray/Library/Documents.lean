import Mathlib.Data.Int.Notation

/-!
# Documents

Values of a JSON document as a dynamically typed program meets them: numbers are
integers, the keys of an object are kept in their order, and every value has a truth
value of its own.

Main results:

- Theorem {lit}`Doc.get?_set`: assigning one field of an object changes no other field.
- Theorem {lit}`Doc.get?_erase`: removing one field of an object removes no other field.
- Theorem {lit}`Doc.get?_update`: assigned fields take precedence over those that are there.
-/

namespace DarkXray
namespace Library

/-- Values without parts. -/
inductive Atom where
  | null
  | bool (b : Bool)
  | int (n : ℤ)
  | str (s : String)
deriving DecidableEq, Repr

namespace Atom

/-- The value that stands for all values equal to it: a Boolean equals an integer. -/
def norm : Atom → Atom
  | bool b => int (if b then 1 else 0)
  | a => a

/-- The text of a value. -/
def text : Atom → String
  | null => "None"
  | bool b => if b then "True" else "False"
  | int n => toString n
  | str s => s

/-- The truth value of a value. -/
def truthy : Atom → Bool
  | null => false
  | bool b => b
  | int n => n ≠ 0
  | str s => s ≠ ""

/-- A text is its own normal form. -/
@[simp]
theorem norm_str (s : String) : (str s).norm = str s :=
  rfl

end Atom

/-- Documents over values without parts. -/
inductive Doc (α : Type := Atom) where
  | atom (a : α)
  | list (items : List (Doc α))
  | dict (fields : List (String × Doc α))

namespace Doc

variable {α : Type}

/-- A text. -/
def str (s : String) : Doc :=
  atom (.str s)

/-- An integer. -/
def int (n : ℤ) : Doc :=
  atom (.int n)

/-- A Boolean. -/
def bool (b : Bool) : Doc :=
  atom (.bool b)

/-- The truth value of a document. -/
def truthy : Doc → Bool
  | atom a => a.truthy
  | list items => !items.isEmpty
  | dict fields => !fields.isEmpty

/-- The document is an object. -/
def isDict : Doc α → Bool
  | dict _ => true
  | _ => false

/-- The value without parts that a document is. -/
def atom? : Doc α → Option α
  | atom a => some a
  | _ => none

/-- The keys of an object. -/
def keys : Doc α → List String
  | dict fields => fields.map Prod.fst
  | _ => []

/-- The text that a document is. -/
def str? : Doc → Option String
  | atom (.str s) => some s
  | _ => none

/-- The integer that a document is; Booleans are none. -/
def int? : Doc → Option ℤ
  | atom (.int n) => some n
  | _ => none

/-- The Boolean that a document is. -/
def bool? : Doc → Option Bool
  | atom (.bool b) => some b
  | _ => none

/-- The items of an array. -/
def list? : Doc α → Option (List (Doc α))
  | list items => some items
  | _ => none

/-- The fields of an object. -/
def dict? : Doc α → Option (List (String × Doc α))
  | dict fields => some fields
  | _ => none

/-- The value that stands for an atom and everything equal to it. -/
def norm? : Doc → Option Atom
  | atom a => some a.norm
  | _ => none

/-- The value of a key in a list of fields. -/
def field? (fields : List (String × Doc α)) (key : String) : Option (Doc α) :=
  (fields.find? fun field => field.1 = key).map Prod.snd

/-- A field of an object. -/
def get? (d : Doc α) (key : String) : Option (Doc α) :=
  match d with
  | dict fields => field? fields key
  | _ => none

/-- A field of an object, or a default. -/
def getD (d : Doc α) (key : String) (default : Doc α) : Doc α :=
  (d.get? key).getD default

/-- A field of an object is there and true. -/
def truthyAt (d : Doc) (key : String) : Bool :=
  (d.get? key).elim false truthy

/-- The items of an array in a field; a missing field has none. -/
def itemsAt (d : Doc α) (key : String) : List (Doc α) :=
  ((d.get? key).bind list?).getD []

/-- The text of a value in a document whose texts need no escapes. -/
def renderAtom : Atom → String
  | .null => "null"
  | .bool b => if b then "true" else "false"
  | .int n => toString n
  | .str s => "\"" ++ s ++ "\""

mutual

/-- The text of a document whose texts need no escapes; the two separators are given. -/
def render (comma colon : String) : Doc → String
  | atom a => renderAtom a
  | list items => "[" ++ renderItems comma colon items ++ "]"
  | dict fields => "\x7b" ++ renderFields comma colon fields ++ "\x7d"

/-- The items of an array. -/
def renderItems (comma colon : String) : List Doc → String
  | [] => ""
  | [d] => render comma colon d
  | d :: items => render comma colon d ++ comma ++ renderItems comma colon items

/-- The fields of an object. -/
def renderFields (comma colon : String) : List (String × Doc) → String
  | [] => ""
  | [(key, d)] => "\"" ++ key ++ "\"" ++ colon ++ render comma colon d
  | (key, d) :: fields => "\"" ++ key ++ "\"" ++ colon ++ render comma colon d ++ comma ++
      renderFields comma colon fields

end

/-- Assign a field. -/
def setField (key : String) (v : Doc α) : List (String × Doc α) → List (String × Doc α)
  | [] => [(key, v)]
  | field :: fields =>
      if field.1 = key then (key, v) :: fields else field :: setField key v fields

/-- The object with one field assigned. -/
def set (d : Doc α) (key : String) (v : Doc α) : Doc α :=
  match d with
  | dict fields => dict (setField key v fields)
  | d => d

/-- The object with one field assigned unless it is there. -/
def setDefault (d : Doc α) (key : String) (v : Doc α) : Doc α :=
  if (d.get? key).isSome then d else d.set key v

/-- The object without one field. -/
def erase (d : Doc α) (key : String) : Doc α :=
  match d with
  | dict fields => dict (fields.filter fun field => field.1 ≠ key)
  | d => d

mutual

/-- Documents that compare equal: the order of the fields of an object is none of its value. -/
def same : Doc → Doc → Bool
  | atom a, atom b => a.norm = b.norm
  | list xs, list ys => sameItems xs ys
  | dict xs, dict ys => xs.length = ys.length && sameFields xs ys
  | _, _ => false

/-- Equal items, one by one. -/
def sameItems : List Doc → List Doc → Bool
  | [], [] => true
  | x :: xs, y :: ys => same x y && sameItems xs ys
  | _, _ => false

/-- Fields that have an equal one under the same key. -/
def sameFields : List (String × Doc) → List (String × Doc) → Bool
  | [], _ => true
  | (key, x) :: xs, ys => (field? ys key).elim false (same x) && sameFields xs ys

end

/-- The object with the fields of another one assigned. -/
def update (d patch : Doc α) : Doc α :=
  match d, patch with
  | dict fields, dict changes =>
      dict ((fields.map fun field => (field.1, (field? changes field.1).getD field.2)) ++
        changes.filter fun change => (field? fields change.1).isNone)
  | d, _ => d

/-- The object without some of its fields. -/
def without (d : Doc α) (keys : List String) : Doc α :=
  match d with
  | dict fields => dict (fields.filter fun field => field.1 ∉ keys)
  | d => d

/-- A field is looked up at the front first. -/
theorem field?_cons (field : String × Doc α) (fields : List (String × Doc α)) (key : String) :
    field? (field :: fields) key = if field.1 = key then some field.2 else field? fields key := by
  unfold field?
  rw [List.find?_cons]
  by_cases h : field.1 = key
  · simp [h]
  · simp [h]

/-- The fields after one has been set. -/
theorem field?_setField (key key' : String) (v : Doc α) (fields : List (String × Doc α)) :
    field? (setField key v fields) key' = if key = key' then some v else field? fields key' := by
  induction fields with
  | nil => simp [setField, field?_cons]
  | cons field fields ih =>
      unfold setField
      by_cases hf : field.1 = key
      · rw [if_pos hf, field?_cons, field?_cons, hf]
        by_cases h : key = key'
        · simp [h]
        · simp [h]
      · rw [if_neg hf, field?_cons, field?_cons, ih]
        by_cases h : field.1 = key'
        · have hne : key ≠ key' := fun heq => hf (h.trans heq.symm)
          simp [h, hne]
        · simp [h]

/-- The fields after one has been removed. -/
theorem field?_filter (key key' : String) (fields : List (String × Doc α)) :
    field? (fields.filter fun field => field.1 ≠ key) key' =
      if key = key' then none else field? fields key' := by
  induction fields with
  | nil => simp [field?]
  | cons field fields ih =>
      by_cases hf : field.1 = key
      · rw [List.filter_cons_of_neg (by simpa using hf), ih, field?_cons, hf]
        by_cases h : key = key'
        · simp [h]
        · simp [h]
      · rw [List.filter_cons_of_pos (by simpa using hf), field?_cons, field?_cons, ih]
        by_cases h : field.1 = key'
        · have hne : key ≠ key' := fun heq => hf (h.trans heq.symm)
          simp [h, hne]
        · simp [h]

/-- Assigning one field changes no other field. -/
theorem get?_set {d : Doc α} (hd : d.isDict) (key key' : String) (v : Doc α) :
    (d.set key v).get? key' = if key = key' then some v else d.get? key' := by
  cases d with
  | dict fields => exact field?_setField key key' v fields
  | atom a => cases hd
  | list items => cases hd

/-- Assigning a field of a document that is no object does nothing. -/
theorem get?_set_of_ne (d : Doc α) {key key' : String} (hne : key ≠ key') (v : Doc α) :
    (d.set key v).get? key' = d.get? key' := by
  cases d with
  | dict fields =>
      have hset := get?_set (rfl : (dict fields).isDict = true) key key' v
      rwa [if_neg hne] at hset
  | atom a => rfl
  | list items => rfl

/-- A default leaves the other fields. -/
theorem get?_setDefault_of_ne (d : Doc α) {key key' : String} (hne : key ≠ key') (v : Doc α) :
    (d.setDefault key v).get? key' = d.get? key' := by
  unfold setDefault
  by_cases h : (d.get? key).isSome
  · rw [if_pos h]
  · rw [if_neg h, get?_set_of_ne d hne]

/-- Removing one field removes no other field. -/
theorem get?_erase (d : Doc α) (key key' : String) :
    (d.erase key).get? key' = if key = key' then none else d.get? key' := by
  cases d with
  | dict fields => exact field?_filter key key' fields
  | atom a => simp [erase, get?]
  | list items => simp [erase, get?]

/-- The old fields after an update. -/
theorem field?_map_update (fields changes : List (String × Doc α)) (key : String) :
    field? (fields.map fun field => (field.1, (field? changes field.1).getD field.2)) key =
      (field? fields key).map fun v => (field? changes key).getD v := by
  induction fields with
  | nil => rfl
  | cons field fields ih =>
      rw [List.map_cons, field?_cons, field?_cons, ih]
      by_cases h : field.1 = key
      · simp [h]
      · simp [h]

/-- The new fields of an update. -/
theorem field?_filter_of_isNone {fields changes : List (String × Doc α)} {key : String}
    (hkey : (field? fields key).isNone) :
    field? (changes.filter fun change => (field? fields change.1).isNone) key =
      field? changes key := by
  induction changes with
  | nil => rfl
  | cons change changes ih =>
      by_cases h : change.1 = key
      · rw [List.filter_cons_of_pos (by rw [h]; exact hkey), field?_cons, field?_cons, if_pos h,
          if_pos h]
      · rw [field?_cons, if_neg h, ← ih, List.filter_cons]
        by_cases hnew : (field? fields change.1).isNone = true
        · rw [if_pos hnew, field?_cons, if_neg h]
        · rw [if_neg hnew]

/-- The assigned fields take precedence. -/
theorem get?_update {d patch : Doc α} (hd : d.isDict) (hpatch : patch.isDict) (key : String) :
    (d.update patch).get? key = (patch.get? key).or (d.get? key) := by
  cases d with
  | atom a => cases hd
  | list items => cases hd
  | dict fields =>
      cases patch with
      | atom a => cases hpatch
      | list items => cases hpatch
      | dict changes =>
          have happend : ∀ xs ys : List (String × Doc α),
              field? (xs ++ ys) key = (field? xs key).or (field? ys key) := by
            intro xs ys
            unfold field?
            rw [List.find?_append]
            cases xs.find? fun field => field.1 = key <;> simp
          change field? (_ ++ _) key = (field? changes key).or (field? fields key)
          rw [happend, field?_map_update]
          cases hfield : field? fields key with
          | none =>
              rw [field?_filter_of_isNone (by rw [hfield]; rfl)]
              simp
          | some v =>
              cases field? changes key <;> simp

/-- An update leaves the kind of a document. -/
theorem isDict_update (d patch : Doc α) : (d.update patch).isDict = d.isDict := by
  cases d with
  | atom a => rfl
  | list items => rfl
  | dict fields => cases patch <;> rfl

/-- Setting a field leaves the kind of a document. -/
theorem isDict_set (d : Doc α) (key : String) (v : Doc α) : (d.set key v).isDict = d.isDict := by
  cases d <;> rfl

/-- Erasing a field leaves the kind of a document. -/
theorem isDict_erase (d : Doc α) (key : String) : (d.erase key).isDict = d.isDict := by
  cases d <;> rfl

/-- Assigning a field the value that it has changes nothing. -/
theorem set_of_get? {d : Doc α} {key : String} {v : Doc α} (h : d.get? key = some v) :
    d.set key v = d := by
  cases d with
  | atom a => rfl
  | list items => rfl
  | dict fields =>
      change field? fields key = some v at h
      change dict (setField key v fields) = dict fields
      congr 1
      induction fields with
      | nil => simp [field?] at h
      | cons field fields ih =>
          rw [field?_cons] at h
          by_cases hkey : field.1 = key
          · rw [if_pos hkey] at h
            rw [setField, if_pos hkey, ← hkey, ← Option.some.inj h]
          · rw [if_neg hkey] at h
            rw [setField, if_neg hkey, ih h]

/-- Removing fields that are not there changes nothing. -/
theorem without_of_absent {d : Doc α} {keys : List String} (h : ∀ key ∈ keys, d.get? key = none) :
    d.without keys = d := by
  cases d with
  | atom a => rfl
  | list items => rfl
  | dict fields =>
      change dict (fields.filter fun field => field.1 ∉ keys) = dict fields
      congr 1
      rw [List.filter_eq_self]
      intro field hmem
      refine decide_eq_true fun hkey => ?_
      have hnone : field? fields field.1 = none := h field.1 hkey
      rw [field?, Option.map_eq_none_iff, List.find?_eq_none] at hnone
      simpa using hnone field hmem

/-- Erasing fields leaves the kind of a document. -/
theorem isDict_without (d : Doc α) (keys : List String) : (d.without keys).isDict = d.isDict := by
  cases d <;> rfl

/-! ## Reading -/

/-- Only an object has fields. -/
theorem isDict_of_get? {d v : Doc α} {key : String} (h : d.get? key = some v) : d.isDict = true := by
  cases d with
  | atom a => simp [get?] at h
  | list items => simp [get?] at h
  | dict fields => rfl

/-- A field that is a text. -/
theorem bind_str?_iff {field : Option Doc} {t : String} :
    field.bind str? = some t ↔ field = some (.str t) := by
  cases field with
  | none => simp
  | some d =>
      cases d with
      | atom a => cases a <;> simp [str?, str]
      | list items => simp [str?, str]
      | dict fields => simp [str?, str]

/-- A field that is a list. -/
theorem bind_list?_iff {field : Option (Doc α)} {values : List (Doc α)} :
    field.bind list? = some values ↔ field = some (.list values) := by
  cases field with
  | none => simp
  | some d => cases d <;> simp [list?]

/-- The items of a field that has been set. -/
theorem itemsAt_set {d : Doc α} (hd : d.isDict = true) (key : String) (items : List (Doc α)) :
    (d.set key (list items)).itemsAt key = items := by
  unfold itemsAt
  rw [get?_set hd, if_pos rfl]
  rfl

end Doc

end Library
end DarkXray
