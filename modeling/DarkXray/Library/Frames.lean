import DarkXray.Library.Preconditions
import DarkXray.Library.Tables

/-!
# Frames

What a procedure leaves alone, however it ends.  A frame is an invariant of the store
together with a preorder on stores.  A procedure keeps it if from a store in the invariant
it ends, by returning or by raising, in a later store in the invariant; what is known of the
value that it returns is stated along with that.

Frames compose along the constructs of a procedure, so that what a program never touches is
proved by walking through its text.

Main results:

- Theorem {lit}`Frame.Keeps.bind` and the rules next to it: the rules of the constructs.
- Theorem {lit}`Frame.Keeps.mapM_stable`: a loop over a list leaves a trace of every round.
- Theorem {lit}`Frame.Keeps.coarsen`: what keeps a fine frame keeps a coarse one.
-/

namespace DarkXray
namespace Library

/-- An invariant of a store, and a preorder that its changes lie in. -/
structure Frame (σ : Type) where
  inv : σ → Prop
  rel : σ → σ → Prop
  refl : ∀ s, rel s s
  trans : ∀ s t u, rel s t → rel t u → rel s u

namespace Frame

variable {σ ε α β γ : Type}

/-- A later store in the invariant. -/
def Later (F : Frame σ) (s t : σ) : Prop :=
  F.inv t ∧ F.rel s t

/-- From every store in the invariant the procedure ends in a later one; what it returns
satisfies a condition. -/
def Keeps (F : Frame σ) (q : α → Prop) (m : Tx σ ε α) : Prop :=
  ∀ s, F.inv s → m.wp (fun a t => F.Later s t ∧ q a) (fun _ t => F.Later s t) s

/-- Nothing is said about the result. -/
abbrev Respects (F : Frame σ) (m : Tx σ ε α) : Prop :=
  F.Keeps (fun _ => True) m

/-- Nothing changes. -/
def still (σ : Type) : Frame σ where
  inv _ := True
  rel s t := t = s
  refl _ := rfl
  trans _ _ _ h h' := h'.trans h

section Rules

variable {F G : Frame σ} {q q' : α → Prop} {m : Tx σ ε α} {s t u : σ} {e : ε}

/-- A store is later than itself. -/
theorem later_refl (h : F.inv s) : F.Later s s :=
  ⟨h, F.refl s⟩

/-- Being later is transitive. -/
theorem Later.trans (hst : F.Later s t) (htu : F.Later t u) : F.Later s u :=
  ⟨htu.1, F.trans s t u hst.2 htu.2⟩

/-- The store that a procedure leaves. -/
theorem Keeps.later (h : F.Keeps q m) (hs : F.inv s) : F.Later s (m s).2 := by
  have hm := h s hs
  revert hm
  unfold Tx.wp
  rcases m s with ⟨_ | a, t⟩
  · exact id
  · exact And.left

/-- The rule of consequence. -/
theorem Keeps.mono (h : F.Keeps q m) (hq : ∀ a, q a → q' a) : F.Keeps q' m :=
  fun s hs => Tx.wp_mono (h s hs) (fun a _ ha => ⟨ha.1, hq a ha.2⟩) fun _ _ ht => ht

/-- What keeps a frame respects it. -/
theorem Keeps.respects (h : F.Keeps q m) : F.Respects m :=
  h.mono fun _ _ => trivial

/-- What keeps a fine frame keeps a coarse one. -/
theorem Keeps.coarsen (h : G.Keeps q m) (hinv : ∀ s, F.inv s → G.inv s)
    (hlater : ∀ s t, F.inv s → G.Later s t → F.Later s t) : F.Keeps q m :=
  fun s hs => Tx.wp_mono (h s (hinv s hs))
    (fun _ t ht => ⟨hlater s t hs ht.1, ht.2⟩) fun _ t ht => hlater s t hs ht

/-- The rule of a value. -/
theorem Keeps.pure {a : α} (h : q a) : F.Keeps q (pure a : Tx σ ε α) :=
  fun _ hs => ⟨later_refl hs, h⟩

/-- The rule of an exception. -/
theorem Keeps.raise : F.Keeps q (Tx.raise e : Tx σ ε α) :=
  fun _ hs => later_refl hs

/-- The rule of a read. -/
theorem Keeps.read {f : σ → α} (h : ∀ s, F.inv s → q (f s)) :
    F.Keeps q (Tx.read f : Tx σ ε α) :=
  fun s hs => ⟨later_refl hs, h s hs⟩

/-- A read respects every frame. -/
theorem Keeps.look {f : σ → α} : F.Respects (Tx.read f : Tx σ ε α) :=
  .read fun _ _ => trivial

/-- The rule of a write. -/
theorem Keeps.write {f : σ → σ} (h : ∀ s, F.inv s → F.Later s (f s)) :
    F.Respects (Tx.write f : Tx σ ε Unit) :=
  fun s hs => ⟨h s hs, trivial⟩

/-- The rule of a result. -/
theorem Keeps.ofExcept {x : Except ε α} (h : ∀ a, x = .ok a → q a) :
    F.Keeps q (Tx.ofExcept x : Tx σ ε α) := by
  intro s hs
  rw [Tx.wp_ofExcept]
  exact ⟨fun a ha => ⟨later_refl hs, h a ha⟩, fun _ _ => later_refl hs⟩

/-- A result respects every frame. -/
theorem Keeps.check {x : Except ε α} : F.Respects (Tx.ofExcept x : Tx σ ε α) :=
  .ofExcept fun _ _ => trivial

/-- The rule of a check. -/
theorem Keeps.require {p : Prop} [Decidable p] :
    F.Keeps (fun _ => p) (Tx.require p e : Tx σ ε Unit) := by
  intro s hs
  rw [Tx.wp_require]
  exact ⟨fun hp => ⟨later_refl hs, hp⟩, fun _ => later_refl hs⟩

/-- The rule of a value that must be there. -/
theorem Keeps.demand {o : Option α} :
    F.Keeps (fun a => o = some a) (Tx.demand o e : Tx σ ε α) := by
  intro s hs
  rw [Tx.wp_demand]
  exact ⟨fun a ha => ⟨later_refl hs, ha⟩, fun _ => later_refl hs⟩

/-- The rule of a conditional. -/
theorem Keeps.when {p : Prop} [Decidable p] {m : Tx σ ε Unit} (h : p → F.Respects m) :
    F.Respects (Tx.when p m) := by
  intro s hs
  rw [Tx.wp_when]
  exact ⟨fun hp => h hp s hs, fun _ => ⟨later_refl hs, trivial⟩⟩

/-- What is known after a procedure that is run on a condition. -/
theorem Keeps.when_post {p r : Prop} [Decidable p] {m : Tx σ ε Unit}
    (h : p → F.Keeps (fun _ => r) m) : F.Keeps (fun _ => p → r) (Tx.when p m) := by
  intro s hs
  rw [Tx.wp_when]
  refine ⟨fun hp => Tx.wp_mono (h hp s hs) (fun _ _ ht => ⟨ht.1, fun _ => ht.2⟩) fun _ _ ht => ht,
    fun hp => ⟨later_refl hs, fun hp' => absurd hp' hp⟩⟩

/-- The rule of sequence. -/
theorem Keeps.bind {f : α → Tx σ ε β} {r : β → Prop} (hm : F.Keeps q m)
    (hf : ∀ a, q a → F.Keeps r (f a)) : F.Keeps r (m >>= f) := by
  intro s hs
  rw [Tx.wp_bind]
  apply Tx.wp_mono (hm s hs)
  · intro a t ht
    apply Tx.wp_mono (hf a ht.2 t ht.1.1)
    · exact fun b u hu => ⟨ht.1.trans hu.1, hu.2⟩
    · exact fun _ u hu => ht.1.trans hu
  · exact fun _ _ ht => ht

/-- A value that is read is known of the store that it is read from. -/
theorem Keeps.read_bind {f : σ → α} {k : α → Tx σ ε β} {r : β → Prop}
    (h : ∀ s, F.inv s → (k (f s)).wp (fun b t => F.Later s t ∧ r b) (fun _ t => F.Later s t) s) :
    F.Keeps r (Tx.read f >>= k) :=
  h

/-- A transaction that raises has changed nothing. -/
theorem Keeps.undone (h : ∀ s, F.inv s → m.wp (fun a t => F.Later s t ∧ q a) (fun _ _ => True) s) :
    F.Keeps q (Tx.transaction m) := by
  intro s hs
  rw [Tx.wp_transaction]
  exact Tx.wp_mono (h s hs) (fun _ _ ht => ht) fun _ _ _ => later_refl hs

/-- The rule of a transaction. -/
theorem Keeps.transaction (h : F.Keeps q m) : F.Keeps q (Tx.transaction m) :=
  .undone fun s hs => Tx.wp_mono (h s hs) (fun _ _ ht => ht) fun _ _ _ => trivial

/-- The rule of handlers. -/
theorem Keeps.handle {h : ε → Option (Tx σ ε α)} (hm : F.Keeps q m)
    (hh : ∀ e m', h e = some m' → F.Keeps q m') : F.Keeps q (Tx.handle m h) := by
  intro s hs
  rw [Tx.wp_handle]
  apply Tx.wp_mono (hm s hs)
  · exact fun _ _ ht => ht
  · intro e t ht
    cases hcase : h e with
    | none => exact ht
    | some m' =>
        apply Tx.wp_mono (hh e m' hcase t ht.1)
        · exact fun b u hu => ⟨ht.trans hu.1, hu.2⟩
        · exact fun _ u hu => ht.trans hu

/-- A procedure on a part of the store. -/
theorem Keeps.within {τ : Type} {get : σ → τ} {set : τ → σ → σ} {m : Tx τ ε α}
    (h : ∀ s, F.inv s → m.wp (fun a p => F.Later s (set p s) ∧ q a)
      (fun _ p => F.Later s (set p s)) (get s)) :
    F.Keeps q (Tx.within get set m) := by
  intro s hs
  rw [Tx.wp_within]
  exact h s hs

/-- The rule of a choice. -/
theorem Keeps.ite {p : Prop} [Decidable p] {m' : Tx σ ε α} (h : p → F.Keeps q m)
    (h' : ¬p → F.Keeps q m') : F.Keeps q (if p then m else m') := by
  split <;> rename_i hp
  · exact h hp
  · exact h' hp

end Rules

section Loops

variable {F : Frame σ} {xs : List α}

/-- The loop rule. -/
theorem Keeps.forM {body : α → Tx σ ε Unit} (h : ∀ x ∈ xs, F.Respects (body x)) :
    F.Respects (xs.forM body) := by
  induction xs with
  | nil => exact Keeps.pure trivial
  | cons x xs ih =>
      change F.Respects (body x >>= fun _ => xs.forM body)
      exact (h x List.mem_cons_self).bind fun _ _ =>
        ih fun y hy => h y (List.mem_cons_of_mem x hy)

/-- A loop with an accumulator. -/
theorem Keeps.foldlM {body : β → α → Tx σ ε β} {q : β → Prop}
    (h : ∀ x ∈ xs, ∀ b, q b → F.Keeps q (body b x)) {b : β} (hb : q b) :
    F.Keeps q (xs.foldlM body b) := by
  induction xs generalizing b with
  | nil => exact Keeps.pure hb
  | cons x xs ih =>
      rw [List.foldlM_cons]
      exact (h x List.mem_cons_self b hb).bind fun b' hb' =>
        ih (fun y hy => h y (List.mem_cons_of_mem x hy)) hb'

/-- Procedures obey the laws of monads. -/
theorem lawfulMonad_tx : LawfulMonad (Tx σ ε) := by
  refine LawfulMonad.mk' (Tx σ ε) ?_ ?_ ?_
  · intro α m
    funext s
    change (m >>= pure) s = m s
    rw [Tx.bind_apply]
    rcases m s with ⟨_ | a, t⟩
    · rfl
    · rfl
  · exact fun _ _ => rfl
  · intro α β γ m f g
    funext s
    rw [Tx.bind_apply, Tx.bind_apply, Tx.bind_apply]
    rcases m s with ⟨_ | a, t⟩
    · rfl
    · rfl

/-- What a round leaves in the store, if it lasts, is there when the loop ends. -/
theorem Keeps.mapM_stable {body : α → Tx σ ε β} {q : α → β → Prop} {good : α → σ → Prop}
    (hstable : ∀ x s t, F.Later s t → good x s → good x t)
    (h : ∀ x ∈ xs, ∀ s, F.inv s →
      (body x).wp (fun b t => F.Later s t ∧ q x b ∧ good x t) (fun _ t => F.Later s t) s) :
    ∀ s, F.inv s → (xs.mapM body).wp
      (fun bs t => F.Later s t ∧ List.Forall₂ q xs bs ∧ ∀ x ∈ xs, good x t)
      (fun _ t => F.Later s t) s := by
  induction xs with
  | nil =>
      intro s hs
      exact ⟨later_refl hs, .nil, fun _ hx => (List.not_mem_nil hx).elim⟩
  | cons x xs ih =>
      intro s hs
      have hlawful : LawfulMonad (Tx σ ε) := lawfulMonad_tx
      rw [List.mapM_cons, Tx.wp_bind]
      apply Tx.wp_mono (h x List.mem_cons_self s hs)
      · intro b t ht
        rw [Tx.wp_bind]
        have hrest := ih (fun y hy => h y (List.mem_cons_of_mem x hy)) t ht.1.1
        apply Tx.wp_mono hrest
        · intro bs u hu
          refine ⟨ht.1.trans hu.1, .cons ht.2.1 hu.2.1, fun y hy => ?_⟩
          rcases List.mem_cons.mp hy with rfl | hrest
          · exact hstable y t u hu.1 ht.2.2
          · exact hu.2.2 y hrest
        · exact fun _ u hu => ht.1.trans hu
      · exact fun _ _ ht => ht

/-- A loop that collects results. -/
theorem Keeps.mapM {body : α → Tx σ ε β} {q : α → β → Prop}
    (h : ∀ x ∈ xs, F.Keeps (q x) (body x)) : F.Keeps (List.Forall₂ q xs) (xs.mapM body) := by
  intro s hs
  have hround : ∀ x ∈ xs, ∀ s, F.inv s →
      (body x).wp (fun b t => F.Later s t ∧ q x b ∧ True) (fun _ t => F.Later s t) s :=
    fun x hx s hs => Tx.wp_mono (h x hx s hs) (fun _ _ ht => ⟨ht.1, ht.2, trivial⟩) fun _ _ ht => ht
  have hloop := mapM_stable (fun _ _ _ _ _ => trivial) hround s hs
  exact Tx.wp_mono hloop (fun _ _ ht => ⟨ht.1, ht.2.1⟩) fun _ _ ht => ht

end Loops

end Frame

/-- Every result of a loop comes from a round. -/
theorem exists_of_forall₂ {α β : Type} {q : α → β → Prop} {xs : List α} {ys : List β}
    (h : List.Forall₂ q xs ys) {y : β} (hy : y ∈ ys) : ∃ x ∈ xs, q x y := by
  induction h with
  | nil => cases hy
  | cons hxy hrest ih =>
      rename_i x y' xs ys
      rcases List.mem_cons.mp hy with rfl | hy
      · exact ⟨x, List.mem_cons_self, hxy⟩
      · obtain ⟨x', hx', hq⟩ := ih hy
        exact ⟨x', List.mem_cons_of_mem x hx', hq⟩

end Library
end DarkXray
