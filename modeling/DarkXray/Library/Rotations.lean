import Mathlib.Data.Set.Insert
import Mathlib.Data.Nat.Notation
import Mathlib.Logic.Function.Basic

/-!
# Locks whose keys are replaced

Owners replace the keys of locks with requests that present one key and ask for another.
Requests arrive late, more than once or never.  An owner has a claim on one lock: the
replacements that it may ask for, from the moment on at which the claim is active.  When it
gives the claim up, the requests that are under way must not have an effect any more.

No key is made twice.  A key that a lock does not have, and that no claim leads to, is
spent: the lock never has it again.  A success that a lock reports to a key shows that the
keys below it in the claim are gone.

Main results:

- Theorems {lit}`Keyring.Inv.rotate`, {lit}`Keyring.Inv.change`, {lit}`Keyring.Inv.claim`
  and {lit}`Keyring.Inv.release`: what can happen to locks and claims keeps the invariant,
  and with it whatever is known of spent keys, covered requests and reported successes.
- Theorem {lit}`Keyring.Inv.confirm`: what a reported success shows.
- Theorem {lit}`Keyring.Covered.effective`: a covered request that has an effect is one of a
  claim.
-/

namespace DarkXray
namespace Library

/-- The replacements that an owner may ask of a lock. -/
structure Claim (ω κ : Type*) where
  lock : ω
  leads : κ → κ → Prop
  active : Prop

/-- Locks with their keys, the keys that there have been, and the claims of the owners.
{lit}`changes` counts how often the key of a lock was changed by hand. -/
structure Keyring (α ω κ : Type*) where
  key : ω → Option κ
  changes : ω → ℕ
  used : Set κ
  claims : α → Option (Claim ω κ)
  closed : Set α

/-- Replacements lead from older to newer keys. -/
structure Claim.Orderly {ω κ : Type*} (c : Claim ω κ) (used : Set κ) : Prop where
  used : ∀ x y, c.leads x y → x ∈ used ∧ y ∈ used
  trans : ∀ x y z, c.leads x y → c.leads y z → c.leads x z
  antisymm : ∀ x y, c.leads x y → c.leads y x → x = y

namespace Keyring

variable {α ω κ : Type*}

/-- The lock never has the key again. -/
structure Spent (r : Keyring α ω κ) (o : ω) (x : κ) : Prop where
  used : x ∈ r.used
  key : r.key o ≠ some x
  claims : ∀ a c, r.claims a = some c → c.lock = o → ∀ y, ¬c.leads y x

/-- A request to replace a key is part of its owner's active claim, or has no effect. -/
def Covered (r : Keyring α ω κ) (a : α) (o : ω) (x y : κ) : Prop :=
  (∃ c, r.claims a = some c ∧ c.lock = o ∧ c.active ∧ c.leads x y) ∨ r.Spent o x ∨ x = y

/-- An owner that has or had a claim. -/
def Known (r : Keyring α ω κ) (a : α) : Prop :=
  a ∈ r.closed ∨ r.claims a ≠ none

/-- The lock has reported a success to a key that its owner presented, after {lit}`n`
changes by hand. -/
structure Confirmed (r : Keyring α ω κ) (a : α) (o : ω) (x : κ) (n : ℕ) : Prop where
  used : x ∈ r.used
  known : r.Known a
  changes : n ≤ r.changes o
  below : ∀ c, r.claims a = some c → c.lock = o → ∀ y, c.leads y x → y ≠ x → r.key o ≠ some y
  top : ∀ c, r.claims a = some c → c.lock = o → (∀ y, c.leads x y → y = x) →
    r.changes o = n → r.key o = some x

/-- Owners claim different locks, and all keys have been used. -/
structure Inv (r : Keyring α ω κ) : Prop where
  unique : ∀ a c a' c', r.claims a = some c → r.claims a' = some c' → c.lock = c'.lock → a = a'
  orderly : ∀ a c, r.claims a = some c → c.Orderly r.used
  key : ∀ o x, r.key o = some x → x ∈ r.used
  closed : ∀ a, a ∈ r.closed → r.claims a = none

/-- What is known stays true. -/
structure Onward (r r' : Keyring α ω κ) : Prop where
  used : r.used ⊆ r'.used
  closed : r.closed ⊆ r'.closed
  changes : ∀ o, r.changes o ≤ r'.changes o
  known : ∀ a, r.Known a → r'.Known a
  spent : ∀ o x, r.Spent o x → r'.Spent o x
  covered : ∀ a o x y, r.Covered a o x y → r'.Covered a o x y
  confirmed : ∀ a o x n, r.Confirmed a o x n → r'.Confirmed a o x n

variable {r r' r'' : Keyring α ω κ} {a : α} {o : ω} {x y k : κ} {c : Claim ω κ} {n : ℕ}

/-- A keyring is onward from itself. -/
theorem Onward.refl (r : Keyring α ω κ) : r.Onward r where
  used := subset_rfl
  closed := subset_rfl
  changes _ := le_rfl
  known _ := id
  spent _ _ := id
  covered _ _ _ _ := id
  confirmed _ _ _ _ := id

/-- Going onward composes. -/
theorem Onward.trans (h : r.Onward r') (h' : r'.Onward r'') : r.Onward r'' where
  used := h.used.trans h'.used
  closed := h.closed.trans h'.closed
  changes o := (h.changes o).trans (h'.changes o)
  known a ha := h'.known a (h.known a ha)
  spent o x hx := h'.spent o x (h.spent o x hx)
  covered a o x y hxy := h'.covered a o x y (h.covered a o x y hxy)
  confirmed a o x n hx := h'.confirmed a o x n (h.confirmed a o x n hx)

/-- Whoever stays within a claim, or asks for a spent key, keeps to what is covered. -/
theorem Covered.mono (h : r.Covered a o x y) (hspent : r.Spent o x → r'.Spent o x)
    (hclaims : ∀ c, r.claims a = some c → c.lock = o → c.active → c.leads x y →
      (∃ c', r'.claims a = some c' ∧ c'.lock = o ∧ c'.active ∧ c'.leads x y) ∨
        r'.Spent o x ∨ x = y) : r'.Covered a o x y := by
  rcases h with ⟨c, hc, hlock, hactive, hleads⟩ | hx | heq
  · exact hclaims c hc hlock hactive hleads
  · exact .inr (.inl (hspent hx))
  · exact .inr (.inr heq)

/-! ## Requests -/

/-- A covered request that has an effect is one of a claim. -/
theorem Covered.effective (h : r.Covered a o x y) (hkey : r.key o = some x) (hxy : x ≠ y) :
    ∃ c, r.claims a = some c ∧ c.lock = o ∧ c.active ∧ c.leads x y := by
  rcases h with hclaim | hspent | heq
  · exact hclaim
  · exact absurd hkey hspent.key
  · exact absurd heq hxy

/-- A lock gets another key. -/
def rotated [DecidableEq ω] (r : Keyring α ω κ) (o : ω) (y : κ) : Keyring α ω κ :=
  { r with key := Function.update r.key o (some y) }

section Locks

variable [DecidableEq ω]

theorem rotated_same (hkey : r.key o = some x) : r.rotated o x = r := by
  rw [rotated, ← hkey, Function.update_eq_self]

/-- A request that is carried out. -/
theorem Inv.rotate (h : r.Inv) (hcovered : r.Covered a o x y) (hkey : r.key o = some x) :
    (r.rotated o y).Inv ∧ r.Onward (r.rotated o y) := by
  by_cases hxy : x = y
  · subst hxy
    rw [rotated_same hkey]
    exact ⟨h, .refl r⟩
  obtain ⟨c, hc, hlock, -, hleads⟩ := hcovered.effective hkey hxy
  have hself : (r.rotated o y).key o = some y := Function.update_self ..
  have hother : ∀ o', o' ≠ o → (r.rotated o y).key o' = r.key o' :=
    fun o' ho' => Function.update_of_ne ho' _ _
  have hspent : ∀ o' z, r.Spent o' z → (r.rotated o y).Spent o' z := by
    intro o' z hz
    refine ⟨hz.used, fun hnew => ?_, hz.claims⟩
    by_cases ho' : o' = o
    · subst ho'
      obtain rfl : y = z := Option.some.inj (hself.symm.trans hnew)
      exact hz.claims a c hc hlock x hleads
    · exact hz.key ((hother o' ho').symm.trans hnew)
  refine ⟨⟨h.unique, h.orderly, fun o' z hz => ?_, h.closed⟩, subset_rfl, subset_rfl,
    fun _ => le_rfl, fun _ => id, hspent, fun a' o' z z' hz => ?_, fun a' o' z n hz => ?_⟩
  · by_cases ho' : o' = o
    · subst ho'
      obtain rfl : y = z := Option.some.inj (hself.symm.trans hz)
      exact ((h.orderly a c hc).used x y hleads).2
    · exact h.key o' z ((hother o' ho').symm.trans hz)
  · exact hz.mono (hspent o' z) fun c' hc' hlock' hactive hleads' =>
      .inl ⟨c', hc', hlock', hactive, hleads'⟩
  · refine ⟨hz.used, hz.known, hz.changes, fun c' hc' hlock' w hw hne hnew => ?_,
      fun c' hc' hlock' htop hn => ?_⟩
    · by_cases ho' : o' = o
      · subst ho'
        obtain rfl : y = w := Option.some.inj (hself.symm.trans hnew)
        obtain rfl := h.unique a c a' c' hc hc' (hlock.trans hlock'.symm)
        obtain rfl : c = c' := Option.some.inj (hc.symm.trans hc')
        -- the lock had a key below the one that was confirmed
        refine hz.below c hc hlock x ((h.orderly a c hc).trans x y z hleads hw) ?_ hkey
        intro heq
        exact hxy ((h.orderly a c hc).antisymm x y hleads (heq ▸ hw))
      · exact hz.below c' hc' hlock' w hw hne ((hother o' ho').symm.trans hnew)
    · by_cases ho' : o' = o
      · subst ho'
        obtain rfl := h.unique a c a' c' hc hc' (hlock.trans hlock'.symm)
        obtain rfl : c = c' := Option.some.inj (hc.symm.trans hc')
        have hz' := hz.top c hc hlock htop hn
        obtain rfl : x = z := Option.some.inj (hkey.symm.trans hz')
        exact absurd (htop y hleads).symm hxy
      · rw [hother o' ho']
        exact hz.top c' hc' hlock' htop hn

/-- What a success shows that the lock reports to a key. -/
theorem Inv.confirm (h : r.Inv) (hcovered : r.Covered a o x y) (hkey : r.key o = some x)
    (hknown : r.Known a) : (r.rotated o y).Confirmed a o x (r.changes o) := by
  have hself : (r.rotated o y).key o = some y := Function.update_self ..
  refine ⟨h.key o x hkey, hknown, le_rfl, fun c hc hlock z hz hne hnew => ?_,
    fun c hc hlock htop _ => ?_⟩
  · obtain rfl : y = z := Option.some.inj (hself.symm.trans hnew)
    obtain ⟨c', hc', -, -, hleads⟩ := hcovered.effective hkey hne.symm
    obtain rfl : c = c' := Option.some.inj (hc.symm.trans hc')
    exact hne ((h.orderly a c hc).antisymm y x hz hleads)
  · by_cases hxy : x = y
    · rw [hself, hxy]
    · obtain ⟨c', hc', -, -, hleads⟩ := hcovered.effective hkey hxy
      obtain rfl : c = c' := Option.some.inj (hc.symm.trans hc')
      exact absurd (htop y hleads).symm hxy

/-! ## Changes by hand -/

/-- The key of a lock is changed by hand. -/
def changed (r : Keyring α ω κ) (o : ω) (k : κ) : Keyring α ω κ :=
  { r with
    key := Function.update r.key o (some k)
    changes := Function.update r.changes o (r.changes o + 1)
    used := insert k r.used }

theorem Inv.change (h : r.Inv) (hk : k ∉ r.used) :
    (r.changed o k).Inv ∧ r.Onward (r.changed o k) := by
  have hself : (r.changed o k).key o = some k := Function.update_self ..
  have hother : ∀ o', o' ≠ o → (r.changed o k).key o' = r.key o' :=
    fun o' ho' => Function.update_of_ne ho' _ _
  have hchanges : (r.changed o k).changes o = r.changes o + 1 := Function.update_self ..
  have hchanges' : ∀ o', o' ≠ o → (r.changed o k).changes o' = r.changes o' :=
    fun o' ho' => Function.update_of_ne ho' _ _
  have hle : ∀ o', r.changes o' ≤ (r.changed o k).changes o' := by
    intro o'
    by_cases ho' : o' = o
    · rw [ho', hchanges]
      omega
    · rw [hchanges' o' ho']
  -- a used key is in a lock only where it was before
  have hkey : ∀ o' z, z ∈ r.used → (r.changed o k).key o' = some z → r.key o' = some z := by
    intro o' z hz hnew
    by_cases ho' : o' = o
    · subst ho'
      obtain rfl : k = z := Option.some.inj (hself.symm.trans hnew)
      exact absurd hz hk
    · exact (hother o' ho').symm.trans hnew
  have hspent : ∀ o' z, r.Spent o' z → (r.changed o k).Spent o' z := fun o' z hz =>
    ⟨Set.mem_insert_of_mem k hz.used, fun hnew => hz.key (hkey o' z hz.used hnew), hz.claims⟩
  refine ⟨⟨h.unique, fun a c hc => ?_, fun o' z hz => ?_, h.closed⟩, Set.subset_insert k r.used,
    subset_rfl, hle, fun _ => id, hspent, fun a o' z z' hz => ?_, fun a o' z n hz => ?_⟩
  · have hc' := h.orderly a c hc
    refine ⟨fun z z' hz => ?_, hc'.trans, hc'.antisymm⟩
    exact (hc'.used z z' hz).imp (Set.mem_insert_of_mem k) (Set.mem_insert_of_mem k)
  · by_cases ho' : o' = o
    · subst ho'
      obtain rfl : k = z := Option.some.inj (hself.symm.trans hz)
      exact Set.mem_insert k r.used
    · exact Set.mem_insert_of_mem k (h.key o' z ((hother o' ho').symm.trans hz))
  · exact hz.mono (hspent o' z) fun c' hc' hlock' hactive hleads' =>
      .inl ⟨c', hc', hlock', hactive, hleads'⟩
  · refine ⟨Set.mem_insert_of_mem k hz.used, hz.known, hz.changes.trans (hle o'),
      fun c hc hlock w hw hne hnew => ?_, fun c hc hlock htop hn => ?_⟩
    · exact hz.below c hc hlock w hw hne
        (hkey o' w ((h.orderly a c hc).used w z hw).1 hnew)
    · by_cases ho' : o' = o
      · subst ho'
        have hle' := hz.changes
        omega
      · rw [hother o' ho']
        exact hz.top c hc hlock htop ((hchanges' o' ho').symm.trans hn)

end Locks

/-! ## Claims -/

section Owners

variable [DecidableEq α]

/-- An owner claims a lock, or widens its claim. -/
def claimed (r : Keyring α ω κ) (a : α) (c : Claim ω κ) (used : Set κ) : Keyring α ω κ :=
  { r with
    claims := Function.update r.claims a (some c)
    used := used }

/-- New replacements lead to new keys. -/
theorem Inv.claim {used : Set κ} (h : r.Inv) (hclosed : a ∉ r.closed)
    (hlock : ∀ a' c', r.claims a' = some c' → c'.lock = c.lock → a' = a)
    (hold : ∀ c', r.claims a = some c' →
      c'.lock = c.lock ∧ (c'.active → c.active) ∧ ∀ x y, c'.leads x y → c.leads x y)
    (hnew : ∀ x y, c.leads x y → y ∉ r.used ∨ ∃ c', r.claims a = some c' ∧ c'.leads x y)
    (hused : r.used ⊆ used) (horderly : c.Orderly used) :
    (r.claimed a c used).Inv ∧ r.Onward (r.claimed a c used) := by
  have hself : (r.claimed a c used).claims a = some c := Function.update_self ..
  have hother : ∀ a', a' ≠ a → (r.claimed a c used).claims a' = r.claims a' :=
    fun a' ha' => Function.update_of_ne ha' _ _
  have hknown : ∀ a', r.Known a' → (r.claimed a c used).Known a' := by
    intro a' ha'
    by_cases haa : a' = a
    · subst haa
      exact .inr (by simp [hself])
    · exact ha'.imp id fun hne => by rwa [hother a' haa]
  -- a claim that leads to a used key did so before
  have hback : ∀ a' c', (r.claimed a c used).claims a' = some c' → ∀ x y, y ∈ r.used →
      c'.leads x y → ∃ c'', r.claims a' = some c'' ∧ c''.lock = c'.lock ∧ c''.leads x y := by
    intro a' c' hc' x y hy hleads
    by_cases haa : a' = a
    · subst haa
      obtain rfl : c = c' := Option.some.inj (hself.symm.trans hc')
      rcases hnew x y hleads with hfresh | ⟨c'', hc'', hleads'⟩
      · exact absurd hy hfresh
      · exact ⟨c'', hc'', (hold c'' hc'').1, hleads'⟩
    · exact ⟨c', (hother a' haa).symm.trans hc', rfl, hleads⟩
  have hspent : ∀ o z, r.Spent o z → (r.claimed a c used).Spent o z := by
    intro o z hz
    refine ⟨hused hz.used, hz.key, fun a' c' hc' hlock' w hw => ?_⟩
    obtain ⟨c'', hc'', hlock'', hw'⟩ := hback a' c' hc' w z hz.used hw
    exact hz.claims a' c'' hc'' (hlock''.trans hlock') w hw'
  refine ⟨⟨fun a₁ c₁ a₂ c₂ hc₁ hc₂ hsame => ?_, fun a' c' hc' => ?_,
    fun o z hz => hused (h.key o z hz), fun a' ha' => ?_⟩, hused, subset_rfl, fun _ => le_rfl,
    hknown, hspent, fun a' o z z' hz => ?_, fun a' o z n hz => ?_⟩
  · have hone : ∀ a' c', (r.claimed a c used).claims a' = some c' → c'.lock = c.lock → a' = a := by
      intro a' c' hc' hl
      by_cases haa : a' = a
      · exact haa
      · exact hlock a' c' ((hother a' haa).symm.trans hc') hl
    by_cases h₁ : a₁ = a
    · subst h₁
      obtain rfl : c = c₁ := Option.some.inj (hself.symm.trans hc₁)
      exact (hone a₂ c₂ hc₂ hsame.symm).symm
    · by_cases h₂ : a₂ = a
      · subst h₂
        obtain rfl : c = c₂ := Option.some.inj (hself.symm.trans hc₂)
        exact hone a₁ c₁ hc₁ hsame
      · exact h.unique a₁ c₁ a₂ c₂ ((hother a₁ h₁).symm.trans hc₁)
          ((hother a₂ h₂).symm.trans hc₂) hsame
  · by_cases haa : a' = a
    · subst haa
      obtain rfl : c = c' := Option.some.inj (hself.symm.trans hc')
      exact horderly
    · have hc'' := h.orderly a' c' ((hother a' haa).symm.trans hc')
      exact ⟨fun z z' hz => (hc''.used z z' hz).imp (fun hu => hused hu) fun hu => hused hu,
        hc''.trans, hc''.antisymm⟩
  · have hne : a' ≠ a := fun heq => hclosed (heq ▸ ha')
    rw [hother a' hne]
    exact h.closed a' ha'
  · refine hz.mono (hspent o z) fun c' hc' hlock' hactive hleads' => .inl ?_
    by_cases haa : a' = a
    · subst haa
      obtain ⟨hsame, hstays, hwider⟩ := hold c' hc'
      exact ⟨c, hself, hsame.symm.trans hlock', hstays hactive, hwider z z' hleads'⟩
    · exact ⟨c', (hother a' haa).trans hc', hlock', hactive, hleads'⟩
  · refine ⟨hused hz.used, hknown a' hz.known, hz.changes, fun c' hc' hlock' w hw hne => ?_,
      fun c' hc' hlock' htop => ?_⟩
    · obtain ⟨c'', hc'', hlock'', hw'⟩ := hback a' c' hc' w z hz.used hw
      exact hz.below c'' hc'' (hlock''.trans hlock') w hw' hne
    · by_cases haa : a' = a
      · subst haa
        obtain rfl : c = c' := Option.some.inj (hself.symm.trans hc')
        obtain ⟨c'', hc''⟩ : ∃ c'', r.claims a' = some c'' :=
          Option.ne_none_iff_exists'.mp (hz.known.resolve_left hclosed)
        obtain ⟨hsame, -, hwider⟩ := hold c'' hc''
        exact hz.top c'' hc'' (hsame.trans hlock') fun w hw => htop w (hwider z w hw)
      · exact hz.top c' ((hother a' haa).symm.trans hc') hlock' htop

/-- An owner gives its claim up. -/
def released (r : Keyring α ω κ) (a : α) : Keyring α ω κ :=
  { r with
    claims := Function.update r.claims a none
    closed := insert a r.closed }

/-- A key is spent once its owner has given the claim up, unless the lock has it. -/
theorem Inv.spend (h : r.Inv) (hc : r.claims a = some c) (hx : x ∈ r.used)
    (hkey : r.key c.lock ≠ some x) : (r.released a).Spent c.lock x := by
  refine ⟨hx, hkey, fun a' c' hc' hlock' => ?_⟩
  have hne : a' ≠ a := by
    rintro rfl
    simp [released] at hc'
  have hc'' : r.claims a' = some c' := (Function.update_of_ne hne _ _).symm.trans hc'
  exact absurd (h.unique a' c' a c hc'' hc hlock') hne

/-- A claim may be given up when it is not active, or the lock has none of the keys that it
would replace. -/
theorem Inv.release (h : r.Inv) (hc : r.claims a = some c)
    (hgone : c.active → ∀ x y, c.leads x y → x ≠ y → r.key c.lock ≠ some x) :
    (r.released a).Inv ∧ r.Onward (r.released a) := by
  have hself : (r.released a).claims a = none := Function.update_self ..
  have hother : ∀ a', a' ≠ a → (r.released a).claims a' = r.claims a' :=
    fun a' ha' => Function.update_of_ne ha' _ _
  have hback : ∀ a' c', (r.released a).claims a' = some c' → a' ≠ a ∧ r.claims a' = some c' := by
    intro a' c' hc'
    have hne : a' ≠ a := by
      rintro rfl
      rw [hself] at hc'
      cases hc'
    exact ⟨hne, (hother a' hne).symm.trans hc'⟩
  have hknown : ∀ a', r.Known a' → (r.released a).Known a' := by
    intro a' ha'
    by_cases haa : a' = a
    · exact .inl (haa ▸ Set.mem_insert a' r.closed)
    · exact ha'.imp (fun hin => Set.mem_insert_of_mem a hin) fun hne => by rwa [hother a' haa]
  have hspent : ∀ o z, r.Spent o z → (r.released a).Spent o z := fun o z hz =>
    ⟨hz.used, hz.key, fun a' c' hc' => hz.claims a' c' (hback a' c' hc').2⟩
  refine ⟨⟨fun a₁ c₁ a₂ c₂ hc₁ hc₂ => ?_, fun a' c' hc' => h.orderly a' c' (hback a' c' hc').2,
    h.key, fun a' ha' => ?_⟩, subset_rfl, Set.subset_insert a r.closed, fun _ => le_rfl, hknown,
    hspent, fun a' o z z' hz => ?_, fun a' o z n hz => ?_⟩
  · exact h.unique a₁ c₁ a₂ c₂ (hback a₁ c₁ hc₁).2 (hback a₂ c₂ hc₂).2
  · by_cases haa : a' = a
    · rw [haa, hself]
    · rw [hother a' haa]
      exact h.closed a' (Set.mem_of_mem_insert_of_ne ha' haa)
  · refine hz.mono (hspent o z) fun c' hc' hlock' hactive hleads' => ?_
    by_cases haa : a' = a
    · subst haa
      obtain rfl : c = c' := Option.some.inj (hc.symm.trans hc')
      subst hlock'
      by_cases hzz : z = z'
      · exact .inr (.inr hzz)
      · exact .inr (.inl (h.spend hc ((h.orderly a' c hc).used z z' hleads').1
          (hgone hactive z z' hleads' hzz)))
    · exact .inl ⟨c', (hother a' haa).trans hc', hlock', hactive, hleads'⟩
  · exact ⟨hz.used, hknown a' hz.known, hz.changes,
      fun c' hc' => hz.below c' (hback a' c' hc').2, fun c' hc' => hz.top c' (hback a' c' hc').2⟩

end Owners

end Keyring

end Library
end DarkXray
