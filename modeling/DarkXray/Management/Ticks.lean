import DarkXray.Management.Effects

/-!
# What a tick does to all clients

A tick carries out what waits for the clients, one after the other and in a batch.  What it
leaves alone is said by a frame, and a frame is kept by the whole tick if it lets the calls for
some clients do what they like and if the other clients do not come up at all, or rest.

Main results:

- Theorem {lit}`tick_follows`: a tick changes nothing of what is wanted of a client.
- Theorem {lit}`tick_gone`: it does not touch a deleted client.
- Theorem {lit}`tick_resting`: it neither carries out nor forgets an operation whose outcome is
  not known, and it leaves alone a record that belongs to somebody else.
-/

namespace DarkXray
namespace Management

open Library Policy Usage
open DarkXray.Core (Record ClientRow ClientStore sortedSet sameSubId emailRe writable keepsIdentity)

/-! ## Rows and lists of rows -/

/-- Every row names the identity that it is stored under. -/
def Named (s : Panel) : Prop :=
  ∀ e row, s.managed.get? e = some row → keepsIdentity e row.desired = true

/-- A row of a list that names its identity. -/
def Fits (m : String × ManagedRow) : Prop :=
  keepsIdentity m.1 m.2.desired = true

/-- Nothing is carried out for a row in one of these states. -/
def Halted (row : ManagedRow) : Prop :=
  row.state = .uncertain ∨ row.state = .conflict

/-- Rows with the same wish keep the same identity. -/
theorem keepsIdentity_wanted_eq {e : String} {row row' : ManagedRow}
    (h : row'.wanted = row.wanted) :
    keepsIdentity e row'.desired = keepsIdentity e row.desired :=
  congrArg (fun wanted : Record × List ℤ => keepsIdentity e wanted.1) h

/-- A client that wants nothing does not name another identity. -/
theorem keepsIdentity_empty {e : String} {client : Record} (h : client.doc = .dict []) :
    keepsIdentity e client = true := by
  unfold keepsIdentity
  rw [h]
  rfl

/-- Rows that are named stay so. -/
theorem Follows.named {s t : Panel} (h : Follows s t) (hs : Named s) : Named t := by
  intro e row' hrow'
  obtain ⟨row, hrow, ⟨hwanted, -⟩ | ⟨-, hempty⟩⟩ := h.row e row' hrow'
  · rw [keepsIdentity_wanted_eq hwanted]
    exact hs e row hrow
  · exact keepsIdentity_empty hempty

/-- A row that is changed names its identity afterwards. -/
theorem Named.update {s : Panel} {e : String} {f : ManagedRow → ManagedRow} (hs : Named s)
    (hf : ∀ row, s.managed.get? e = some row → keepsIdentity e (f row).desired = true) :
    Named { s with managed := s.managed.update e f } := by
  intro e' row' hrow'
  simp only [Table.get?_update] at hrow'
  split at hrow' <;> rename_i he
  · subst he
    obtain ⟨row, hrow, rfl⟩ := Option.map_eq_some_iff.mp hrow'
    exact hf row hrow
  · exact hs e' row' hrow'

/-- The rows that a tick works on. -/
theorem mem_metas_iff {s : Panel} {m : String × ManagedRow} :
    m ∈ s.metas ↔ s.managed.get? m.1 = some m.2 ∧ m.2.state ≠ .deleted := by
  rw [Panel.metas, List.mem_filter, Table.get?_eq_some_iff, decide_eq_true_eq]

/-! ## Frames that calls for some clients keep -/

/-- What happens to the clients that are free does not matter to the frame. -/
structure Permits (F : Frame Panel) (free : String → Prop) : Prop where
  named : ∀ s, F.inv s → Named s
  later : ∀ s t, F.inv s → Follows s t → (∀ e, ¬free e → Spares e s t) → F.Later s t

section Permits

variable {F : Frame Panel} {free : String → Prop} {e : String} {α : Type} {q : α → Prop}
  {m : Call α} {env : Setting} {records : Table String ClientRow}

/-- A call that touches a free client only. -/
theorem Permits.touch (h : Permits F free) (he : free e) (hm : (touching e).Keeps q m) :
    F.Keeps q m := by
  refine hm.coarsen (fun _ _ => trivial) fun s t hs ht => h.later s t hs ht.2.1 fun e' he' => ?_
  refine ht.2.2 e' fun heq => ?_
  subst heq
  exact he' he

/-- A call that touches no client. -/
theorem Permits.calm (h : Permits F free) (hm : ∀ e, (touching e).Keeps q m) : F.Keeps q m := by
  intro s hs
  have hboth := Tx.wp_and (hm "" s trivial) (hm "*" s trivial)
  have hlater : ∀ t, (touching "").Later s t → (touching "*").Later s t → F.Later s t := by
    intro t ht ht'
    refine h.later s t hs ht.2.1 fun e _ => ?_
    by_cases he : e = ""
    · subst he
      exact ht'.2.2 "" (by decide)
    · exact ht.2.2 e he
  apply Tx.wp_mono hboth
  · exact fun a t ht => ⟨hlater t ht.1.1 ht.2.1, ht.1.2⟩
  · exact fun _ t ht => hlater t ht.1 ht.2

/-- Only the rows of some clients may have changed. -/
def onlyRows (free : String → Prop) : Frame ClientStore where
  inv _ := True
  rel c c' := ∀ e, ¬free e → c'.clients.get? e = c.clients.get? e
  refl _ _ _ := rfl
  trans _ _ _ h h' e he := (h' e he).trans (h e he)

/-- Documents that are items for some clients. -/
def ItemsFor (free : String → Prop) (items : List Doc) : Prop :=
  ∀ d ∈ items, ∃ email client inbounds, free email ∧ d = batchItem email client inbounds

/-- A batch changes the rows of its items only. -/
theorem upsertMany_only {items : List Doc} (hitems : ItemsFor free items) :
    (onlyRows free).Respects (Core.upsertMany items) := by
  intro c _
  unfold Tx.wp
  cases hrun : Core.upsertMany items c with
  | mk result c' =>
      cases result with
      | error fault =>
          rw [Core.upsertMany_error hrun]
          exact Frame.later_refl trivial
      | ok n =>
          obtain ⟨-, -, ps, hps, -, rfl⟩ := Core.upsertMany_ok_iff.mp hrun
          obtain ⟨xs, hreads, -, hnodup, -, rfl⟩ := Core.prepare_ok_iff.mp hps
          refine ⟨⟨trivial, fun e he => ?_⟩, trivial⟩
          refine (Core.foldl_leaves (s := c) hnodup).others e fun hmem => he ?_
          obtain ⟨x, hx, rfl⟩ := List.mem_map.mp hmem
          obtain ⟨d, hd, hread⟩ := exists_of_forall₂ hreads hx
          obtain ⟨email, client, inbounds, hfree, rfl⟩ := hitems d hd
          have hname := hread.email
          simp only [batchItem] at hname
          cases hname
          exact hfree

/-- What only writes free rows of the core keeps the frame. -/
theorem Permits.onCore (h : Permits F free) {m : Tx ClientStore Core.Fault α}
    (hm : (onlyRows free).Keeps q m) : F.Keeps q (onCore m) := by
  refine .within fun s hs => ?_
  rw [Tx.wp_mapError]
  have hlater : ∀ c, (onlyRows free).Later s.clientStore c →
      F.Later s { s with core := c.clients } := fun c hc =>
    h.later s _ hs (follows_core s _) fun e he => spares_core (by rw [hc.2 e he]; rfl)
  apply Tx.wp_mono (hm s.clientStore trivial)
  · exact fun a c hc => ⟨hlater c hc.1, hc.2⟩
  · exact fun _ c hc => hlater c hc

/-- A transaction keeps the frame if its body does. -/
theorem Permits.commit (h : Permits F free) (hm : F.Keeps q m) : F.Keeps q (commit m) :=
  (h.calm fun _ => point_touches).bind fun _ _ => hm.transaction

/-- A batch for free rows keeps the frame. -/
theorem Permits.batch (h : Permits F free) {items : List Doc} (hitems : ItemsFor free items) :
    F.Respects (engineUpsertMany items) := by
  refine (h.calm fun _ => reach_touches).bind fun _ _ => ?_
  exact (h.onCore (upsertMany_only hitems)).bind fun _ _ => .pure trivial

/-- Listing the clients keeps the frame. -/
theorem Permits.engineClients (h : Permits F free) : F.Respects engineClients :=
  h.calm fun _ => engineClients_touches

/-! ## The phases of a tick -/

/-- Deadlines are brought up to date. -/
theorem scheduleCycles_keeps (h : Permits F free) {select : String → Bool}
    (hrow : ∀ s, F.inv s → ∀ m ∈ s.metas, select m.1 = true → F.Respects (schedule env m.1 m.2)) :
    F.Respects (scheduleCycles env select) := by
  refine h.commit (.read_bind fun s hs => Frame.Keeps.forM (fun m hm => ?_) s hs)
  obtain ⟨hmem, hselect⟩ := List.mem_filter.mp hm
  exact hrow s hs m hmem hselect

/-- A row of a list that the frame permits to work on, or that rests. -/
structure Workable (free : String → Prop) (m : String × ManagedRow) : Prop where
  fits : Fits m
  open_ : free m.1 ∨ Halted m.2

/-- The same client, and it wants the same. -/
def SameWish (m m' : String × ManagedRow) : Prop :=
  m'.1 = m.1 ∧ m'.2.desired = m.2.desired

/-- A row with the same wish fits as well. -/
theorem SameWish.fits {m m' : String × ManagedRow} (h : SameWish m m') (hm : Fits m) :
    Fits m' := by
  unfold Fits
  rw [h.1, h.2]
  exact hm

/-- A client is metered, or it is noted that its record is not there. -/
theorem observe_touches {m : String × ManagedRow} :
    (touching m.1).Keeps (SameWish m) (observe env records m) := by
  unfold observe
  cases records.get? m.1 with
  | none =>
      refine .ite (fun _ => ?_) fun _ => .pure ⟨rfl, rfl⟩
      refine Frame.Keeps.bind (commit_touches (setManaged_touches fun row => ⟨rfl, fun h => ?_⟩))
        fun _ _ => .pure ⟨rfl, rfl⟩
      cases h
  | some record =>
      refine .ite (fun _ => charge_touches.bind fun _ _ => .pure ⟨rfl, rfl⟩) fun _ => ?_
      refine Frame.Keeps.bind (commit_touches (setManaged_touches fun row => ⟨rfl, fun h => ?_⟩))
        fun _ _ => .pure ⟨rfl, rfl⟩
      cases h

/-- The edits of a batch are for free clients. -/
def Batched (free : String → Prop) (batch : List Edit) : Prop :=
  ∀ x ∈ batch, free x.email ∧ keepsIdentity x.email x.row.desired = true

/-- A row that is halted idles. -/
theorem halted_idles {row : ManagedRow} {writes : Bool} (h : Halted row) :
    Idles env writes row := by
  rcases h with h | h
  · exact .inr (.inr (.inl h))
  · exact .inr (.inr (.inr (.inl h)))

/-- Planning a change keeps the frame, and the batch is for free rows. -/
theorem planUpsert_keeps {existing : Option ClientRow} {row : ManagedRow}
    {acc : Progress} (he : free e) (hfits : Fits (e, row)) (hacc : Batched free acc.batch) :
    F.Keeps (fun acc => Batched free acc.batch) (planUpsert env existing e row acc) := by
  refine Frame.Keeps.require.bind fun _ _ => Frame.Keeps.look.bind fun enabled _ => .pure ?_
  intro x hx
  rcases List.mem_append.mp hx with hold | hnew
  · exact hacc x hold
  · obtain rfl := List.mem_singleton.mp hnew
    exact ⟨he, hfits⟩

/-- An operation is carried out, or taken up for the batch. -/
theorem process_keeps (h : Permits F free) {m : String × ManagedRow} {acc : Progress}
    (hm : Workable free m) (hacc : Batched free acc.batch) :
    F.Keeps (fun acc => Batched free acc.batch) (process env records acc m) := by
  refine Frame.Keeps.look.bind fun writes _ => .ite (fun _ => .pure hacc) fun hbusy => ?_
  have hfree : free m.1 := hm.open_.resolve_right fun hhalted => hbusy (halted_idles hhalted)
  refine .ite (fun _ => .handle (planUpsert_keeps hfree hm.fits hacc) fun halt m' hm' => ?_)
    fun _ => ?_
  · split at hm'
    · cases hm'
      exact (h.touch hfree markFailure_touches).bind fun _ _ => .pure hacc
    · cases hm'
  · exact (h.touch hfree (attempt_touches hm.fits)).bind fun _ _ => .pure hacc

/-- Settling a batch for free rows keeps the frame. -/
theorem settleBatch_keeps (h : Permits F free) {batch : List Edit} (hbatch : Batched free batch) :
    F.Respects (settleBatch batch) := by
  refine h.commit (.forM fun x hx => h.touch (hbatch x hx).1 takenOver_touches)

/-- The edits of a batch are carried out. -/
theorem runBatch_keeps (h : Permits F free) {acc : Progress} (hacc : Batched free acc.batch) :
    F.Respects (runBatch env records acc) := by
  refine .ite (fun _ => .pure trivial) fun _ => .handle ?_ fun halt m' hm' => ?_
  · refine Frame.Keeps.bind (h.batch fun d hd => ?_) fun _ _ =>
      (settleBatch_keeps h hacc).bind fun _ _ => .pure trivial
    obtain ⟨x, hx, rfl⟩ := List.mem_map.mp hd
    exact ⟨_, _, _, (hacc x hx).1, rfl⟩
  · split at hm'
    · cases hm'
      exact .foldlM (fun x hx changed _ =>
        h.touch (hacc x hx).1 (attempt_touches (hacc x hx).2)) trivial
    · cases hm'

/-- Settling a row that may be worked on keeps the frame. -/
theorem settle_keeps (h : Permits F free) {m : String × ManagedRow} (hm : Workable free m) :
    F.Respects (settle env records m) := by
  unfold settle
  cases records.get? m.1 with
  | none => exact .pure trivial
  | some record =>
      refine .ite (fun _ => .pure trivial) fun hbusy => ?_
      refine h.touch (hm.open_.resolve_right fun hhalted => ?_) settleRow_touches
      rcases hhalted with hstate | hstate
      · exact hbusy (.inr (.inr hstate))
      · exact hbusy (.inr (.inl hstate))

/-- What follows the observation of all clients. -/
theorem carryOut_keeps (h : Permits F free)
    (hrows : ∀ s, F.inv s → ∀ m ∈ s.metas, Workable free m) {metas : List (String × ManagedRow)}
    (hmetas : ∀ m ∈ metas, Workable free m) : F.Respects (carryOut env records metas) := by
  have hnone : Batched free (⟨false, []⟩ : Progress).batch := fun x hx => by cases hx
  refine (Frame.Keeps.foldlM (fun m hm acc hacc => process_keeps h (hmetas m hm) hacc)
    hnone).bind fun acc hacc => (runBatch_keeps h hacc).bind fun changed _ => ?_
  have hreread : F.Keeps (fun last => ∀ m ∈ last.2, Workable free m)
      (reread changed records metas) := by
    refine .ite (fun _ => ?_) fun _ => .pure hmetas
    refine h.engineClients.bind fun records _ => ?_
    exact (Frame.Keeps.read hrows).bind fun metas hmetas => .pure hmetas
  refine hreread.bind fun last hlast => ?_
  refine (Frame.Keeps.forM fun m hm => settle_keeps h (hlast m hm)).bind fun _ _ => ?_
  exact h.calm fun _ => engineFlush_touches

/-- A tick whose rows are all free. -/
theorem tickBody_keeps (h : Permits F free)
    (hrows : ∀ s, F.inv s → ∀ m ∈ s.metas, free m.1) : F.Respects (tickBody env) := by
  have hfits : ∀ s, F.inv s → ∀ m ∈ s.metas, Fits m := fun s hs m hm =>
    h.named s hs m.1 m.2 (mem_metas_iff.mp hm).1
  have hwork : ∀ s, F.inv s → ∀ m ∈ s.metas, Workable free m := fun s hs m hm =>
    ⟨hfits s hs m hm, .inl (hrows s hs m hm)⟩
  refine Frame.Keeps.bind (scheduleCycles_keeps h fun s hs m hm _ =>
    h.touch (hrows s hs m hm) schedule_touches) fun _ _ => ?_
  refine h.engineClients.bind fun records _ => ?_
  have hread : F.Keeps (fun metas => ∀ m ∈ metas, Fits m ∧ free m.1)
      (Tx.read Panel.metas : Call (List (String × ManagedRow))) :=
    .read fun s hs m hm => ⟨hfits s hs m hm, hrows s hs m hm⟩
  refine hread.bind fun metas hmetas => ?_
  refine Frame.Keeps.bind (.mapM fun m hm => h.touch (hmetas m hm).2 observe_touches)
    fun seen hseen => carryOut_keeps h hwork fun m' hm' => ?_
  obtain ⟨m, hm, hsame⟩ := exists_of_forall₂ hseen hm'
  refine ⟨hsame.fits (hmetas m hm).1, .inl ?_⟩
  rw [hsame.1]
  exact (hmetas m hm).2

/-- A suppressed exception leaves what the body has left. -/
theorem tick_keeps {suppress : Bool} (hbody : F.Respects (tickBody env)) :
    F.Respects (tick env suppress) := by
  refine .handle hbody fun halt m' hm' => ?_
  split at hm'
  · cases hm'
    exact .pure trivial
  · cases hm'

end Permits

/-! ## What is wanted -/

/-- Every row names its identity, and what is wanted stays. -/
def following : Frame Panel where
  inv := Named
  rel := Follows
  refl := .refl
  trans _ _ _ := .trans

/-- The frame of the followers permits all writes. -/
theorem permits_following : Permits following fun _ => True where
  named _ := id
  later _ _ hs hfollows _ := ⟨hfollows.named hs, hfollows⟩

/-- A tick changes nothing of what is wanted. -/
theorem tick_follows (env : Setting) (suppress : Bool) : following.Respects (tick env suppress) :=
  tick_keeps (tickBody_keeps permits_following fun _ _ _ _ => trivial)

/-! ## Deleted clients -/

/-- A client is deleted, and the policy does not know it. -/
def Ended (e : String) (s : Panel) : Prop :=
  (∃ row, s.managed.get? e = some row ∧ row.state = .deleted) ∧ s.policy.clients.get? e = none

/-- A deleted client is left alone. -/
def gone (e : String) : Frame Panel where
  inv s := Named s ∧ Ended e s
  rel := Spares e
  refl := .refl e
  trans _ _ _ := .trans

/-- A client that has ended is ended after changes that spare it. -/
theorem Ended.spared {e : String} {s t : Panel} (h : Ended e s) (hspares : Spares e s t) :
    Ended e t := by
  obtain ⟨⟨row, hrow, hstate⟩, hpolicy⟩ := h
  exact ⟨⟨row, hspares.row.trans hrow, hstate⟩, hspares.policy.trans hpolicy⟩

/-- No list of rows holds a deleted client. -/
theorem Ended.not_listed {e : String} {s : Panel} (h : Ended e s) {m : String × ManagedRow}
    (hm : m ∈ s.metas) : m.1 ≠ e := by
  obtain ⟨⟨row, hrow, hstate⟩, -⟩ := h
  obtain ⟨hget, hne⟩ := mem_metas_iff.mp hm
  intro heq
  rw [heq, hrow] at hget
  exact hne (Option.some.inj hget ▸ hstate)

/-- The frame of a client that is gone permits writes to the others. -/
theorem permits_gone (e : String) : Permits (gone e) (· ≠ e) where
  named _ h := h.1
  later _ _ hs hfollows hspares :=
    ⟨⟨hfollows.named hs.1, hs.2.spared (hspares e fun hne => hne rfl)⟩,
      hspares e fun hne => hne rfl⟩

/-- A tick does not touch a deleted client. -/
theorem tick_gone (e : String) (env : Setting) (suppress : Bool) :
    (gone e).Respects (tick env suppress) :=
  tick_keeps (tickBody_keeps (permits_gone e) fun _ hs _ hm => hs.2.not_listed hm)

/-! ## Clients that rest -/

/-- The core holds another client under the identity. -/
def Mistaken (e : String) (s : Panel) : Prop :=
  ∃ row record, s.managed.get? e = some row ∧ s.core.get? e = some record ∧
    sameSubId record.body row.desired = false

/-- Nothing may be done to a client: its operation has an unknown outcome or is in conflict, or
the record in the core is not its own. -/
structure Resting (e : String) (s : Panel) : Prop where
  known : ∃ row, s.managed.get? e = some row ∧ row.state ≠ .deleted
  cause : (∃ row, s.managed.get? e = some row ∧ Halted row ∧ row.op ≠ .none) ∨ Mistaken e s

/-- A client that rests is left alone, besides that a record of its own is metered. -/
structure Rests (e : String) (s t : Panel) : Prop where
  row : ∀ row, s.managed.get? e = some row → ∃ row', t.managed.get? e = some row' ∧
    row'.wanted = row.wanted ∧ row'.state ≠ .deleted ∧
      (Halted row → Halted row' ∧ row'.op = row.op ∧ row'.opId = row.opId)
  record : (t.core.get? e).map shape = (s.core.get? e).map shape
  tombstone : t.tombstones.get? e = s.tombstones.get? e
  resets : t.resets.count e = s.resets.count e
  policy : t.policy.clients.get? e = s.policy.clients.get? e
  meters : Mistaken e s → t.accounts.managed.get? e = s.accounts.managed.get? e ∧
    t.accounts.clients.get? e = s.accounts.clients.get? e ∧
    t.accounts.billed e = s.accounts.billed e

section Resting

variable {e : String} {s t u : Panel} {row row' : ManagedRow} {record record' : ClientRow}

/-- Whether the subscription is the same depends on the wish and the shape only. -/
theorem sameSubId_congr (hwanted : row'.wanted = row.wanted)
    (hshape : shape record' = shape record) :
    sameSubId record'.body row'.desired = sameSubId record.body row.desired := by
  have hbody : record'.body = record.body := congrArg Prod.fst hshape
  have hdesired : row'.desired = row.desired := congrArg Prod.fst hwanted
  rw [hbody, hdesired]

/-- A client that rests stays mistaken. -/
theorem Rests.mistaken (h : Rests e s t) (hs : Mistaken e s) : Mistaken e t := by
  obtain ⟨row, record, hrow, hrecord, hother⟩ := hs
  obtain ⟨row', hrow', hwanted, -⟩ := h.row row hrow
  have hshape := h.record
  rw [hrecord, Option.map_some] at hshape
  obtain ⟨record', hrecord', hsame⟩ := Option.map_eq_some_iff.mp hshape
  exact ⟨row', record', hrow', hrecord', (sameSubId_congr hwanted hsame).trans hother⟩

/-- A client that rests goes on resting. -/
theorem Rests.resting (h : Rests e s t) (hs : Resting e s) : Resting e t where
  known := by
    obtain ⟨row, hrow, -⟩ := hs.known
    obtain ⟨row', hrow', -, hstate, -⟩ := h.row row hrow
    exact ⟨row', hrow', hstate⟩
  cause := by
    rcases hs.cause with ⟨row, hrow, hhalted, hop⟩ | hmistaken
    · obtain ⟨row', hrow', -, -, hkept⟩ := h.row row hrow
      obtain ⟨hhalted', hop', -⟩ := hkept hhalted
      exact .inl ⟨row', hrow', hhalted', hop' ▸ hop⟩
    · exact .inr (h.mistaken hmistaken)

/-- Resting is transitive. -/
theorem Rests.trans (h : Rests e s t) (h' : Rests e t u) : Rests e s u where
  row := by
    intro row hrow
    obtain ⟨row', hrow', hwanted, -, hkept⟩ := h.row row hrow
    obtain ⟨row'', hrow'', hwanted', hstate', hkept'⟩ := h'.row row' hrow'
    refine ⟨row'', hrow'', hwanted'.trans hwanted, hstate', fun hhalted => ?_⟩
    obtain ⟨hhalted', hop, hid⟩ := hkept hhalted
    obtain ⟨hhalted'', hop', hid'⟩ := hkept' hhalted'
    exact ⟨hhalted'', hop'.trans hop, hid'.trans hid⟩
  record := h'.record.trans h.record
  tombstone := h'.tombstone.trans h.tombstone
  resets := h'.resets.trans h.resets
  policy := h'.policy.trans h.policy
  meters := by
    intro hmistaken
    obtain ⟨hmeter, hused, hbilled⟩ := h.meters hmistaken
    obtain ⟨hmeter', hused', hbilled'⟩ := h'.meters (h.mistaken hmistaken)
    exact ⟨hmeter'.trans hmeter, hused'.trans hused, hbilled'.trans hbilled⟩

/-- A client that is spared rests. -/
theorem Rests.of_spares (hs : ∃ row, s.managed.get? e = some row ∧ row.state ≠ .deleted)
    (h : Spares e s t) : Rests e s t where
  row := by
    intro row hrow
    obtain ⟨row₀, hrow₀, hstate⟩ := hs
    obtain rfl := Option.some.inj (hrow.symm.trans hrow₀)
    exact ⟨row, h.row.trans hrow, rfl, hstate, fun hhalted => ⟨hhalted, rfl, rfl⟩⟩
  record := h.record
  tombstone := h.tombstone
  resets := h.resets
  policy := h.policy
  meters _ := ⟨h.meter, h.used, h.billed⟩

/-- Nothing is carried out for a client as its row is now. -/
def HaltedAt (e : String) (s : Panel) : Prop :=
  ∃ row, s.managed.get? e = some row ∧ Halted row

/-- A row as it was at the start, as far as it matters. -/
def AsBefore (e : String) (s : Panel) (row : ManagedRow) : Prop :=
  ∃ row₀, s.managed.get? e = some row₀ ∧ row.wanted = row₀.wanted ∧ row.state ≠ .deleted ∧
    (Halted row₀ → Halted row ∧ row.op = row₀.op ∧ row.opId = row₀.opId)

/-- The client rests since the start. -/
def dormant (e : String) (s : Panel) : Frame Panel where
  inv t := Named t ∧ Rests e s t
  rel _ _ := True
  refl _ := trivial
  trans _ _ _ _ _ := trivial

/-- The client rests, and once it is halted it stays so. -/
def settling (e : String) (s : Panel) : Frame Panel where
  inv t := Named t ∧ Rests e s t
  rel t u := HaltedAt e t → HaltedAt e u
  refl _ := id
  trans _ _ _ h h' := h' ∘ h

/-- The client rests and is halted. -/
def stilled (e : String) (s : Panel) : Frame Panel where
  inv t := (Named t ∧ Rests e s t) ∧ HaltedAt e t
  rel _ _ := True
  refl _ := trivial
  trans _ _ _ _ _ := trivial

section Dormant

variable {e : String} {s t : Panel} {row : ManagedRow} {env : Setting}

/-- The row of a client that rests is as before. -/
theorem Rests.asBefore (h : Rests e s t) (hs : Resting e s) (hrow : t.managed.get? e = some row) :
    AsBefore e s row := by
  obtain ⟨row₀, hrow₀, -⟩ := hs.known
  obtain ⟨row', hrow', hwanted, hstate, hkept⟩ := h.row row₀ hrow₀
  obtain rfl := Option.some.inj (hrow.symm.trans hrow')
  exact ⟨row₀, hrow₀, hwanted, hstate, hkept⟩

/-- The row of the client may change into one that is as before. -/
theorem Rests.of_row {f : ManagedRow → ManagedRow} (h : Rests e s t) (hs : Resting e s)
    (hf : ∀ row, AsBefore e s row → AsBefore e s (f row)) :
    Rests e s { t with managed := t.managed.update e f } where
  row := by
    intro row₀ hrow₀
    obtain ⟨row', hrow', -⟩ := h.row row₀ hrow₀
    obtain ⟨row₁, hrow₁, hlater⟩ := hf row' (h.asBefore hs hrow')
    obtain rfl := Option.some.inj (hrow₀.symm.trans hrow₁)
    refine ⟨f row', ?_, hlater⟩
    rw [Table.get?_update, if_pos rfl, hrow']
    rfl
  record := h.record
  tombstone := h.tombstone
  resets := h.resets
  policy := h.policy
  meters := h.meters

/-- A client that rests and is spared rests. -/
theorem Rests.spared {u : Panel} (h : Rests e s t) (hs : Resting e s) (hspares : Spares e t u) :
    Rests e s u := by
  obtain ⟨row₀, hrow₀, -⟩ := hs.known
  obtain ⟨row', hrow', -, hstate, -⟩ := h.row row₀ hrow₀
  exact h.trans (.of_spares ⟨row', hrow', hstate⟩ hspares)

/-- A client that is halted and spared stays halted. -/
theorem HaltedAt.spared (h : HaltedAt e s) (hspares : Spares e s t) : HaltedAt e t := by
  obtain ⟨row, hrow, hhalted⟩ := h
  exact ⟨row, hspares.row.trans hrow, hhalted⟩

/-- The frame of a dormant client permits writes to the others. -/
theorem permits_dormant (hs : Resting e s) : Permits (dormant e s) (· ≠ e) where
  named _ h := h.1
  later _ _ ht hfollows hspares :=
    ⟨⟨hfollows.named ht.1, ht.2.spared hs (hspares e fun hne => hne rfl)⟩, trivial⟩

/-- The frame of a settling client permits writes to the others. -/
theorem permits_settling (hs : Resting e s) : Permits (settling e s) (· ≠ e) where
  named _ h := h.1
  later _ _ ht hfollows hspares :=
    ⟨⟨hfollows.named ht.1, ht.2.spared hs (hspares e fun hne => hne rfl)⟩,
      fun hhalted => hhalted.spared (hspares e fun hne => hne rfl)⟩

/-- The frame of a stilled client permits writes to the others. -/
theorem permits_stilled (hs : Resting e s) : Permits (stilled e s) (· ≠ e) where
  named _ h := h.1.1
  later _ _ ht hfollows hspares :=
    ⟨⟨⟨hfollows.named ht.1.1, ht.1.2.spared hs (hspares e fun hne => hne rfl)⟩,
      ht.2.spared (hspares e fun hne => hne rfl)⟩, trivial⟩

/-- The schedule of a client that rests may request a reset only where nothing is halted. -/
theorem schedule_dormant (hs : Resting e s) (hrow : AsBefore e s row) :
    (dormant e s).Respects (schedule env e row) := by
  have hpermits := permits_dormant hs
  refine Frame.Keeps.check.bind fun settings _ => ?_
  cases scheduleSpec settings with
  | none => exact hpermits.calm fun _ => cycles_touches
  | some spec =>
      refine Frame.Keeps.look.bind fun cycle _ => ?_
      cases cycle with
      | none => exact hpermits.calm fun _ => restartSchedule_touches
      | some cycle =>
          refine .ite (fun _ => hpermits.calm fun _ => restartSchedule_touches) fun _ => ?_
          refine (hpermits.calm fun _ => cycles_touches).bind fun _ _ => .when fun hdue => ?_
          refine (hpermits.calm fun _ => token_touches).bind fun opId _ => .write fun t ht => ?_
          have hnamed := ht.1.update (f := ManagedRow.awaitReset opId) (ht.1 e)
          refine ⟨⟨hnamed, ht.2.of_row hs fun row' hrow' => ?_⟩, trivial⟩
          obtain ⟨row₀, hrow₀, hwanted, -, -⟩ := hrow'
          refine ⟨row₀, hrow₀, hwanted, ?_, fun hhalted => ?_⟩
          · intro hdeleted
            cases hdeleted
          obtain ⟨row₁, hrow₁, -, -, hkept⟩ := hrow
          obtain rfl := Option.some.inj (hrow₀.symm.trans hrow₁)
          obtain ⟨hstate | hstate, -⟩ := hkept hhalted
          · rw [hdue.2.2.2] at hstate
            cases hstate
          · rw [hdue.2.2.2] at hstate
            cases hstate

/-- Metering writes nothing but meters. -/
def booking : Frame Panel where
  inv _ := True
  rel s t := t.managed = s.managed ∧ t.core = s.core ∧ t.tombstones = s.tombstones ∧
    t.resets = s.resets ∧ t.policy = s.policy
  refl _ := ⟨rfl, rfl, rfl, rfl, rfl⟩
  trans _ _ _ h h' := ⟨h'.1.trans h.1, h'.2.1.trans h.2.1, h'.2.2.1.trans h.2.2.1,
    h'.2.2.2.1.trans h.2.2.2.1, h'.2.2.2.2.trans h.2.2.2.2⟩

/-- A point at which the process may stop keeps the books. -/
theorem point_books : booking.Respects point := by
  have hnext : booking.Respects nextAnswer := Frame.Keeps.look.bind fun answer _ =>
    Frame.Keeps.bind (.write fun s _ => ⟨trivial, rfl, rfl, rfl, rfl, rfl⟩) fun _ _ => .pure trivial
  refine hnext.bind fun answer _ => ?_
  cases answer with
  | answers samples => exact .pure trivial
  | fails h => exact .pure trivial
  | crashes => exact .raise

/-- A charge keeps the books. -/
theorem charge_books {record : ClientRow} : booking.Respects (charge env e record) := by
  refine point_books.bind fun _ _ => Frame.Keeps.look.bind fun _ _ => ?_
  refine Frame.Keeps.demand.bind fun meter _ => .within fun s _ => ?_
  apply Tx.wp_of_forall
  · exact fun _ _ => ⟨⟨trivial, rfl, rfl, rfl, rfl, rfl⟩, trivial⟩
  · exact fun _ _ => ⟨trivial, rfl, rfl, rfl, rfl, rfl⟩

/-- What a client that rests has to do with the records and rows that a tick works on. -/
def SeenBy (e : String) (s : Panel) (records : Table String ClientRow) : Prop :=
  (records.get? e).map shape = (s.core.get? e).map shape

/-- Metering a client that rests for another reason than a foreign record. -/
theorem charge_settling (hown : ¬Mistaken e s) {record : ClientRow} (ht : Named t)
    (hrests : Rests e s t) : (charge env e record).wp
      (fun _ u => (settling e s).Later t u) (fun _ u => (settling e s).Later t u) t := by
  have hlater : ∀ u, booking.Later t u → (settling e s).Later t u := by
    intro u hu
    obtain ⟨-, hmanaged, hcore, htombstones, hresets, hpolicy⟩ := hu
    have hrests' : Rests e s u :=
      { row := fun row hrow => hmanaged ▸ hrests.row row hrow
        record := by rw [hcore]; exact hrests.record
        tombstone := by rw [htombstones]; exact hrests.tombstone
        resets := by rw [hresets]; exact hrests.resets
        policy := by rw [hpolicy]; exact hrests.policy
        meters := fun hmistaken => (hown hmistaken).elim }
    refine ⟨⟨fun e' row hrow => ht e' row (hmanaged ▸ hrow), hrests'⟩, fun hhalted => ?_⟩
    obtain ⟨row, hrow, hstate⟩ := hhalted
    exact ⟨row, hmanaged ▸ hrow, hstate⟩
  apply Tx.wp_mono (charge_books t trivial)
  · exact fun _ u hu => hlater u hu.1
  · exact fun _ u hu => hlater u hu

/-- Noting a foreign record halts the client. -/
theorem conflict_settling (hs : Resting e s) (ht : Named t) (hrests : Rests e s t) :
    (commit (setManaged e ManagedRow.conflicting)).wp
      (fun _ u => (settling e s).Later t u ∧ HaltedAt e u)
      (fun _ u => (settling e s).Later t u) t := by
  unfold commit
  rw [Tx.wp_bind]
  have hpoint := (permits_settling hs).calm (fun _ => point_touches) t ⟨ht, hrests⟩
  apply Tx.wp_mono hpoint
  · intro _ u hu
    have hinv : (settling e s).inv u := hu.1.1
    have hrests' : Rests e s { u with managed := u.managed.update e ManagedRow.conflicting } := by
      refine hinv.2.of_row hs fun row hrow => ?_
      obtain ⟨row₀, hrow₀, hwanted, -, hkept⟩ := hrow
      refine ⟨row₀, hrow₀, hwanted, ?_, fun hhalted => ⟨.inr rfl, (hkept hhalted).2⟩⟩
      intro hdeleted
      cases hdeleted
    have hhalted : HaltedAt e { u with managed := u.managed.update e ManagedRow.conflicting } := by
      obtain ⟨row₀, hrow₀, -⟩ := hs.known
      obtain ⟨row, hrow, -⟩ := hinv.2.row row₀ hrow₀
      refine ⟨row.conflicting, ?_, .inr rfl⟩
      rw [Table.get?_update, if_pos rfl, hrow]
      rfl
    exact ⟨⟨⟨hinv.1.update fun row hrow => hinv.1 e row hrow, hrests'⟩, fun _ => hhalted⟩, hhalted⟩
  · exact fun _ u hu => hu

/-- A client that rests is halted once it was observed. -/
theorem observe_resting (hs : Resting e s) {records : Table String ClientRow}
    (hseen : SeenBy e s records) (hrow : AsBefore e s row) (ht : Named t) (hrests : Rests e s t) :
    (observe env records (e, row)).wp
      (fun b u => (settling e s).Later t u ∧ (SameWish (e, row) b ∧ Halted b.2) ∧ HaltedAt e u)
      (fun _ u => (settling e s).Later t u) t := by
  obtain ⟨row₀, hrow₀, hwanted, -, hkept⟩ := hrow
  have hown : ¬Mistaken e s → Halted row ∧ row.op ≠ .none ∧ HaltedAt e t := by
    intro hown
    obtain ⟨row₁, hrow₁, hhalted, hop⟩ := hs.cause.resolve_right hown
    obtain rfl := Option.some.inj (hrow₀.symm.trans hrow₁)
    obtain ⟨row', hrow', -, -, hkept'⟩ := hrests.row row₀ hrow₀
    exact ⟨(hkept hhalted).1, (hkept hhalted).2.1 ▸ hop, row', hrow', (hkept' hhalted).1⟩
  unfold observe
  cases hrecord : records.get? e with
  | none =>
      have hfree : ¬Mistaken e s := by
        rintro ⟨_, record, _, hcore, _⟩
        rw [SeenBy, hrecord, hcore] at hseen
        cases hseen
      obtain ⟨hhalted, hop, hat⟩ := hown hfree
      simp only [if_neg hop]
      exact ⟨⟨⟨ht, hrests⟩, id⟩, ⟨⟨rfl, rfl⟩, hhalted⟩, hat⟩
  | some record =>
      simp only
      rw [SeenBy, hrecord, Option.map_some] at hseen
      obtain ⟨record₀, hcore, hshape⟩ := Option.map_eq_some_iff.mp hseen.symm
      split <;> rename_i hsame
      · have hfree : ¬Mistaken e s := by
          rintro ⟨row₁, record₁, hrow₁, hcore₁, hother⟩
          obtain rfl := Option.some.inj (hrow₀.symm.trans hrow₁)
          obtain rfl := Option.some.inj (hcore.symm.trans hcore₁)
          rw [sameSubId_congr hwanted hshape.symm, hother] at hsame
          cases hsame
        obtain ⟨hhalted, -, hat⟩ := hown hfree
        rw [Tx.wp_bind]
        apply Tx.wp_mono (charge_settling hfree ht hrests)
        · exact fun _ u hu => ⟨hu, ⟨⟨rfl, rfl⟩, hhalted⟩, hu.2 hat⟩
        · exact fun _ u hu => hu
      · rw [Tx.wp_bind]
        apply Tx.wp_mono (conflict_settling hs ht hrests)
        · exact fun _ u hu => ⟨hu.1, ⟨⟨rfl, rfl⟩, .inr rfl⟩, hu.2⟩
        · exact fun _ u hu => hu

/-- The rows that a tick has read belong to a client that rests, or to another one. -/
structure Listed (e : String) (s : Panel) (metas : List (String × ManagedRow)) : Prop where
  fits : ∀ m ∈ metas, Fits m
  before : ∀ m ∈ metas, m.1 = e → AsBefore e s m.2
  listed : ∃ m ∈ metas, m.1 = e

/-- A client that rests is listed as before. -/
theorem Rests.listed (h : Rests e s t) (hs : Resting e s) (ht : Named t) : Listed e s t.metas where
  fits m hm := ht m.1 m.2 (mem_metas_iff.mp hm).1
  before m hm heq := h.asBefore hs (heq ▸ (mem_metas_iff.mp hm).1)
  listed := by
    obtain ⟨row₀, hrow₀, -⟩ := hs.known
    obtain ⟨row, hrow, -, hstate, -⟩ := h.row row₀ hrow₀
    exact ⟨(e, row), mem_metas_iff.mpr ⟨hrow, hstate⟩, rfl⟩

/-- Observing all clients halts the one that rests. -/
theorem observeAll_resting (hs : Resting e s) {records : Table String ClientRow}
    (hseen : SeenBy e s records) {metas : List (String × ManagedRow)} (hmetas : Listed e s metas)
    (ht : (settling e s).inv t) :
    (metas.mapM (observe env records)).wp
      (fun seen u => (stilled e s).inv u ∧ ∀ m ∈ seen, Workable (· ≠ e) m)
      (fun _ u => (settling e s).inv u) t := by
  have hstable : ∀ (m : String × ManagedRow) (t u : Panel), (settling e s).Later t u →
      (m.1 = e → HaltedAt e t) → m.1 = e → HaltedAt e u := fun m t u htu hgood heq =>
    htu.2 (hgood heq)
  have hround : ∀ m ∈ metas, ∀ u, (settling e s).inv u → (observe env records m).wp
      (fun b v => (settling e s).Later u v ∧ (SameWish m b ∧ (m.1 = e → Halted b.2)) ∧
        (m.1 = e → HaltedAt e v)) (fun _ v => (settling e s).Later u v) u := by
    intro m hm u hu
    by_cases he : m.1 = e
    · subst he
      apply Tx.wp_mono (observe_resting hs hseen (hmetas.before m hm rfl) hu.1 hu.2)
      · exact fun b v hv => ⟨hv.1, ⟨hv.2.1.1, fun _ => hv.2.1.2⟩, fun _ => hv.2.2⟩
      · exact fun _ v hv => hv
    · apply Tx.wp_mono ((permits_settling hs).touch he observe_touches u hu)
      · exact fun b v hv => ⟨hv.1, ⟨hv.2, fun heq => absurd heq he⟩, fun heq => absurd heq he⟩
      · exact fun _ v hv => hv
  apply Tx.wp_mono (Frame.Keeps.mapM_stable hstable hround t ht)
  · intro seen u hu
    obtain ⟨hlater, hresults, hgood⟩ := hu
    obtain ⟨m, hm, heq⟩ := hmetas.listed
    refine ⟨⟨hlater.1, hgood m hm heq⟩, fun b hb => ?_⟩
    obtain ⟨m', hm', hsame, hhalted⟩ := exists_of_forall₂ hresults hb
    refine ⟨hsame.fits (hmetas.fits m' hm'), ?_⟩
    by_cases he : m'.1 = e
    · exact .inr (hhalted he)
    · exact .inl (hsame.1 ▸ he)
  · exact fun _ u hu => hu.1

/-- The list of the clients shows a resting client as before. -/
theorem engineClients_seen (hs : Resting e s) :
    (dormant e s).Keeps (SeenBy e s) engineClients := by
  have hpermits := permits_dormant hs
  refine (hpermits.calm fun _ => reach_touches).bind fun _ _ => ?_
  refine (hpermits.calm fun _ => collect_touches).bind fun _ _ => ?_
  exact .read fun t ht => ht.2.record

/-- A tick leaves alone what rests. -/
theorem tickBody_dormant (hs : Resting e s) : (dormant e s).Respects (tickBody env) := by
  have hpermits := permits_dormant hs
  refine Frame.Keeps.bind (scheduleCycles_keeps hpermits fun t ht m hm _ => ?_) fun _ _ => ?_
  · by_cases he : m.1 = e
    · subst he
      exact schedule_dormant hs (ht.2.asBefore hs (mem_metas_iff.mp hm).1)
    · exact hpermits.touch he schedule_touches
  refine (engineClients_seen hs).bind fun records hseen => .read_bind fun t ht => ?_
  rw [Tx.wp_bind]
  apply Tx.wp_mono (observeAll_resting hs hseen (ht.2.listed hs ht.1) ht)
  · intro seen u hu
    have hrest : (stilled e s).Respects (carryOut env records seen) :=
      carryOut_keeps (permits_stilled hs) (fun v hv m hm => ?_) hu.2
    · apply Tx.wp_mono (hrest u hu.1)
      · exact fun _ v hv => ⟨⟨hv.1.1.1, trivial⟩, trivial⟩
      · exact fun _ v hv => ⟨hv.1.1, trivial⟩
    · obtain ⟨hget, -⟩ := mem_metas_iff.mp hm
      refine ⟨hv.1.1 m.1 m.2 hget, ?_⟩
      by_cases he : m.1 = e
      · obtain ⟨row, hrow, hhalted⟩ := hv.2
        rw [he, hrow] at hget
        exact .inr (Option.some.inj hget ▸ hhalted)
      · exact .inl he
  · exact fun _ u hu => ⟨hu, trivial⟩

end Dormant

/-- A client that rests goes on resting. -/
def resting (e : String) : Frame Panel where
  inv s := Named s ∧ Resting e s
  rel s t := Resting e s → Rests e s t
  refl s hs := .of_spares hs.known (.refl e s)
  trans _ _ _ h h' hs := (h hs).trans (h' ((h hs).resting hs))

/-- A tick neither carries out nor forgets an operation whose outcome is not known, and leaves
alone a record that belongs to somebody else. -/
theorem tick_resting (e : String) (env : Setting) (suppress : Bool) :
    (resting e).Respects (tick env suppress) := by
  intro s hs
  have hrests : (dormant e s).inv s := ⟨hs.1, .of_spares hs.2.known (.refl e s)⟩
  have hlater : ∀ t, (dormant e s).Later s t → (resting e).Later s t := fun t ht =>
    ⟨⟨ht.1.1, ht.1.2.resting hs.2⟩, fun _ => ht.1.2⟩
  have htick : (dormant e s).Respects (tick env suppress) := tick_keeps (tickBody_dormant hs.2)
  apply Tx.wp_mono (htick s hrests)
  · exact fun _ t ht => ⟨hlater t ht.1, trivial⟩
  · exact fun _ t ht => hlater t ht

end Resting

end Management
end DarkXray
