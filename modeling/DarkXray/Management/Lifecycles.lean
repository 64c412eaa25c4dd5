import DarkXray.Library.Runs
import DarkXray.Management.Isolation

/-!
# Clients over the life of a panel

Runs of a panel: commands, each with what the world does while it runs, and changes that do not
go through the manager.  A command may stop at any point, and the process may end there.

Main results:

- Theorem {lit}`deletion_is_final`: a deleted client is never touched again.
- Theorem {lit}`wish_lasts`: what is wanted of a client changes by commands that name it only.
- Theorem {lit}`foreign_record_spared`: a record of somebody else is neither metered nor changed.
- Theorem {lit}`uncertain_reset_not_replayed`: a reset that a restart has interrupted is not
  carried out again.
-/

namespace DarkXray
namespace Management

open Library Policy Usage
open DarkXray.Core (Record ClientRow keepsIdentity)

/-! ## Runs -/

/-- What happens to a panel. -/
inductive Happening where
  | command (env : Setting) (script : List Answer) (c : Command)
  | outside

/-- What changes without the manager: not its own tables, and not what it has done. -/
structure Aside (s t : Panel) : Prop where
  managed : t.managed = s.managed
  clients : t.policy.clients = s.policy.clients
  profiles : t.profiles = s.profiles
  resets : t.resets = s.resets

/-- The panel before a command, with what the world will do. -/
def Panel.facing (s : Panel) (script : List Answer) : Panel :=
  { s with script := script }

/-- One step of a panel. -/
inductive Happens (s : Panel) : Happening → Panel → Prop
  | command (env : Setting) (script : List Answer) (c : Command) :
      Happens s (.command env script c) (c.run env (s.facing script)).2
  | outside {t : Panel} (h : Aside s t) : Happens s .outside t

/-- A panel without clients. -/
def Fresh (s : Panel) : Prop :=
  ∀ e, s.managed.get? e = none

/-- A panel that a fresh one may become. -/
def Attained (s : Panel) : Prop :=
  ∃ s₀ es, Fresh s₀ ∧ Run Happens s₀ es s

/-! ## An example -/

/-- A library for examples, with texts that are what they are. -/
def plainTexts : Texts where
  strip := id
  lower := id
  int _ := none
  isUuid _ := true
  digest := id
  random _ := "r"
  lower_lower _ := rfl

/-- A moment for examples. -/
def noon : Setting :=
  ⟨plainTexts, 1000, 0⟩

/-- A panel with one inbound that is run by one person for one representative. -/
def deskPanel : Panel where
  policy := Store.fresh fun account =>
    if account = "boss" then some .owner else if account = "desk" then some .reseller else none
  accounts := ⟨.empty, .empty, .empty, none, .empty, []⟩
  blocked _ := false
  profiles := .empty
  managed := .empty
  cycles := .empty
  groups := []
  core := .empty
  tombstones := .empty
  resets := []
  inbounds := [(1, .dict [("protocol", .str "vless"), ("remark", .str "main")])]
  writesEnabled := true
  tokens := 0
  script := []

/-- The one person. -/
def boss : Actor :=
  ⟨"boss", .owner, []⟩

/-- The terms of the representative. -/
def deskTerms : Command :=
  .ownerPut boss "desk"
    { name := "Desk", allowed := [1], volumeCreditBytes := .int 1000, unlimitedCredit := .int 0
      maxClients := .int 0, manual := .none, quotaBytes := .none, pref := "d-"
      maxClientIps := .int 3, maxClientHwid := .int 2, uuid := "0123456789abcdef" }

/-- A client of the representative. -/
def deskCreate : Command :=
  .create boss "desk" (.dict [("email", .str "d-mika"), ("limitIp", .int 1), ("limitHwid", .int 1),
    ("totalGB", .int 10)]) [1] .none

/-- The panel when its representative may sell. -/
def deskOpened : Panel :=
  (deskTerms.run noon (deskPanel.facing [])).2

/-- The panel with a client. -/
def deskSold : Panel :=
  (deskCreate.run noon (deskOpened.facing [])).2

/-- The panel after the client was deleted. -/
def deskDeleted : Panel :=
  ((Command.destroy boss "d-mika" .delete).run noon (deskSold.facing [])).2

/-- The panel when the process ends while it resets the client. -/
def deskInterrupted : Panel :=
  ((Command.destroy boss "d-mika" .reset).run noon
    (deskSold.facing (List.replicate 11 (.answers []) ++ [.crashes]))).2

/-- The panel after somebody has replaced the client in the core. -/
def deskReplaced : Panel :=
  { deskSold with core := deskSold.core.update "d-mika" fun row =>
      { row with body := row.body.set "subId" (.str "other") } }

/-- The terms of the desk are accepted. -/
theorem run_deskOpened : Run Happens deskPanel [.command noon [] deskTerms] deskOpened :=
  Run.single (.command noon [] deskTerms)

/-- The desk sells a client. -/
theorem run_deskSold :
    Run Happens deskPanel [.command noon [] deskTerms, .command noon [] deskCreate] deskSold :=
  run_deskOpened.snoc (.command noon [] deskCreate)

/-- The panel of the desk begins fresh. -/
theorem fresh_deskPanel : Fresh deskPanel :=
  fun e => Table.get?_empty e

/-- The sale is reached from a fresh panel. -/
theorem attained_deskSold : Attained deskSold :=
  ⟨deskPanel, _, fresh_deskPanel, run_deskSold⟩

/-- The deletion is reached from a fresh panel. -/
theorem attained_deskDeleted : Attained deskDeleted :=
  ⟨deskPanel, _, fresh_deskPanel, run_deskSold.snoc (.command noon [] _)⟩

/-- The interrupted reset is reached from a fresh panel. -/
theorem attained_deskInterrupted : Attained deskInterrupted :=
  ⟨deskPanel, _, fresh_deskPanel, run_deskSold.snoc (.command noon _ _)⟩

/-- The replaced client is reached from a fresh panel. -/
theorem attained_deskReplaced : Attained deskReplaced :=
  ⟨deskPanel, _, fresh_deskPanel, run_deskSold.snoc (.outside ⟨rfl, rfl, rfl, rfl⟩)⟩

/-! ## Frames along runs -/

section Frames

variable {e : String} {s t : Panel} {F : Frame Panel} {free : String → Prop}

/-- Other answers of the surroundings leave the clients alike. -/
theorem facing_alike (s : Panel) (script : List Answer) : Alike s (s.facing script) :=
  ⟨rfl, rfl, rfl, rfl, rfl, rfl, rfl, rfl, rfl⟩

/-- A command that does not find the clients it names keeps a frame about clients. -/
theorem Tended.command (h : Tended F free) {env : Setting} {script : List Answer} {c : Command}
    (hopen : ∀ e ∈ c.names env, Opens F free e) (hs : F.inv s) :
    F.Later s (c.run env (s.facing script)).2 := by
  have hfacing : F.Later s (s.facing script) :=
    h.later _ _ hs (h.named s hs) fun e _ => (facing_alike s script).spares e
  exact hfacing.trans ((Command.keeps h env c hopen).later hfacing.1)

/-- Every row names its identity. -/
def naming : Frame Panel where
  inv := Named
  rel _ _ := True
  refl _ := trivial
  trans _ _ _ _ _ := trivial

/-- A restart changes nothing of what is wanted. -/
theorem follows_recovered (s : Panel) :
    Follows s { s with managed := s.managed.mapRows fun _ => ManagedRow.recovered } where
  profiles := rfl
  owner _ u hu := ⟨u, hu, rfl⟩
  known e row hrow := by
    refine ⟨row.recovered, ?_⟩
    rw [Table.get?_mapRows, hrow]
    rfl
  row e row' hrow' := by
    simp only [Table.get?_mapRows] at hrow'
    obtain ⟨row, hrow, rfl⟩ := Option.map_eq_some_iff.mp hrow'
    refine ⟨row, hrow, .inl ?_⟩
    unfold ManagedRow.recovered
    split
    · refine ⟨rfl, fun hdeleted => ?_⟩
      cases hdeleted
    · exact ⟨rfl, id⟩

/-- What a restart does to the rows, in a frame that lets the process end. -/
theorem recoverResets_keeps (h : Permits F free)
    (hwrite : ∀ s, F.inv s →
      F.Later s { s with managed := s.managed.mapRows fun _ => ManagedRow.recovered }) :
    F.Respects recoverResets :=
  h.commit (.write hwrite)

/-- The frame of the names permits all writes. -/
theorem permits_naming : Permits naming fun _ => True where
  named _ := id
  later _ _ hs hfollows _ := ⟨hfollows.named hs, trivial⟩

/-- The frame of the names is tended. -/
theorem tended_naming : Tended naming fun _ => True where
  named _ := id
  known _ _ _ he := (he trivial).elim
  later _ _ _ ht _ := ⟨ht, trivial⟩
  tick env suppress := (tick_follows env suppress).coarsen (fun _ => id) fun _ _ _ ht =>
    ⟨ht.1, trivial⟩
  start := recoverResets_keeps permits_naming fun _ hs => ⟨(follows_recovered _).named hs, trivial⟩

/-- In every panel that is attained, all rows name their identities. -/
theorem Attained.named (h : Attained s) : Named s := by
  obtain ⟨s₀, es, hfresh, hrun⟩ := h
  have hstart : Named s₀ := by
    intro e row hrow
    rw [hfresh e] at hrow
    cases hrow
  refine hrun.invariant hstart fun a ev b ha hstep => ?_
  · cases hstep with
    | command env script c =>
        exact (tended_naming.command (fun _ _ _ _ _ => trivial) ha).1
    | outside haside => exact fun e row hrow => ha e row (haside.managed ▸ hrow)

/-! ## Deleted clients -/

/-- The frame of a client that is gone is tended. -/
theorem tended_gone (e : String) : Tended (gone e) (· ≠ e) where
  named _ h := h.1
  known s hs e' he' := by
    obtain ⟨⟨row, hrow, -⟩, -⟩ := hs.2
    obtain rfl := not_not.mp he'
    exact ⟨row, hrow⟩
  later s t hs ht hspares :=
    ⟨⟨ht, hs.2.spared (hspares e fun hne => hne rfl)⟩, hspares e fun hne => hne rfl⟩
  tick := tick_gone e
  start := by
    refine recoverResets_keeps (permits_gone e) fun s hs => ?_
    have hspares : Spares e s
        { s with managed := s.managed.mapRows fun _ => ManagedRow.recovered } := by
      refine ⟨?_, rfl, rfl, rfl, rfl, rfl, rfl, rfl⟩
      obtain ⟨⟨row, hrow, hstate⟩, -⟩ := hs.2
      rw [Table.get?_mapRows, hrow, Option.map_some, ManagedRow.recovered, if_neg]
      rw [hstate]
      decide
    exact ⟨⟨(follows_recovered s).named hs.1, hs.2.spared hspares⟩, hspares⟩

/-- No command finds a deleted client. -/
theorem opens_gone (e e' : String) : Opens (gone e) (· ≠ e) e' := by
  rintro s hs (⟨u, hu⟩ | ⟨row, hrow, hstate⟩) rfl
  · rw [hs.2.2] at hu
    cases hu
  · obtain ⟨⟨row', hrow', hdeleted⟩, -⟩ := hs.2
    obtain rfl := Option.some.inj (hrow.symm.trans hrow')
    exact hstate hdeleted

/-- A deleted client stays deleted, whatever is asked of the panel later on, and no command
touches its row, its record in the core, its meters or its policy. -/
theorem deletion_is_final {es : List Happening} (hs : Attained s) (hended : Ended e s)
    (hrun : Run Happens s es t) (env : Setting) (script : List Answer) (c : Command) :
    Ended e t ∧ Spares e t (c.run env (t.facing script)).2 := by
  have hinv : (gone e).inv t := by
    have hstart : (gone e).inv s := ⟨hs.named, hended⟩
    refine hrun.invariant hstart fun a ev b ha hstep => ?_
    cases hstep with
    | command env script c => exact ((tended_gone e).command (fun e' _ => opens_gone e e') ha).1
    | outside haside =>
        refine ⟨fun e row hrow => ha.1 e row (haside.managed ▸ hrow), ?_, ?_⟩
        · rw [haside.managed]
          exact ha.2.1
        · rw [haside.clients]
          exact ha.2.2
  exact ⟨hinv.2, ((tended_gone e).command (fun e' _ => opens_gone e e') hinv).2⟩

/-- A client that was deleted is not created again. -/
theorem deletion_is_final_deskDeleted :
    Ended "d-mika" deskDeleted ∧
      Spares "d-mika" deskDeleted (deskCreate.run noon (deskDeleted.facing [])).2 := by
  have hended : Ended "d-mika" deskDeleted := by
    refine ⟨⟨(deskDeleted.managed.get? "d-mika").get (by decide +kernel), ?_, ?_⟩, ?_⟩
    · rw [Option.some_get]
    · decide +kernel
    · decide +kernel
  exact deletion_is_final attained_deskDeleted hended Run.nil noon [] deskCreate

/-! ## What is wanted -/

/-- A client wants what it wanted and belongs to its owner, or it is deleted and wants nothing. -/
structure Wishes (e : String) (s t : Panel) : Prop where
  row : ∀ row, s.managed.get? e = some row → ∃ row', t.managed.get? e = some row' ∧
    Succeeds (t.policy.clients.get? e) row row'
  owner : ∀ u', t.policy.clients.get? e = some u' →
    ∃ u, s.policy.clients.get? e = some u ∧ u.owner = u'.owner

/-- A store keeps its own wishes. -/
theorem Wishes.refl (e : String) (s : Panel) : Wishes e s s :=
  ⟨fun row hrow => ⟨row, hrow, .refl row⟩, fun u hu => ⟨u, hu, rfl⟩⟩

/-- Keeping wishes is transitive. -/
theorem Wishes.trans {v : Panel} (h : Wishes e s t) (h' : Wishes e t v) : Wishes e s v where
  row := by
    intro row hrow
    obtain ⟨row', hrow', hsucceeds⟩ := h.row row hrow
    obtain ⟨row'', hrow'', hsucceeds'⟩ := h'.row row' hrow'
    refine ⟨row'', hrow'', hsucceeds.trans hsucceeds' fun hnone => ?_⟩
    cases hv : v.policy.clients.get? e with
    | none => rfl
    | some u =>
        obtain ⟨u', hu', -⟩ := h'.owner u hv
        rw [hnone] at hu'
        cases hu'
  owner := by
    intro u'' hu''
    obtain ⟨u', hu', howner'⟩ := h'.owner u'' hu''
    obtain ⟨u, hu, howner⟩ := h.owner u' hu'
    exact ⟨u, hu, howner.trans howner'⟩

/-- A store that follows keeps the wishes. -/
theorem Follows.wishes (h : Follows s t) : Wishes e s t where
  row := by
    intro row hrow
    obtain ⟨row', hrow'⟩ := h.known e row hrow
    obtain ⟨row₀, hrow₀, hsucceeds⟩ := h.row e row' hrow'
    obtain rfl := Option.some.inj (hrow.symm.trans hrow₀)
    exact ⟨row', hrow', hsucceeds⟩
  owner := h.owner e

/-- A change that spares a client keeps its wishes. -/
theorem Spares.wishes (h : Spares e s t) : Wishes e s t where
  row row hrow := ⟨row, h.row.trans hrow, .refl row⟩
  owner u' hu' := ⟨u', h.policy ▸ hu', rfl⟩

/-- A client is known, and its wish lasts. -/
def wishing (e : String) : Frame Panel where
  inv s := Named s ∧ ∃ row, s.managed.get? e = some row
  rel := Wishes e
  refl := .refl e
  trans _ _ _ := .trans

/-- A client that was known stays known. -/
theorem Wishes.known (h : Wishes e s t) (hs : ∃ row, s.managed.get? e = some row) :
    ∃ row, t.managed.get? e = some row := by
  obtain ⟨row, hrow⟩ := hs
  obtain ⟨row', hrow', -⟩ := h.row row hrow
  exact ⟨row', hrow'⟩

/-- The frame of the wishes of a client permits writes to the others. -/
theorem permits_wishing (e : String) : Permits (wishing e) (· ≠ e) where
  named _ h := h.1
  later _ _ hs hfollows _ :=
    ⟨⟨hfollows.named hs.1, hfollows.wishes.known hs.2⟩, hfollows.wishes⟩

/-- The frame of the wishes of a client is tended. -/
theorem tended_wishing (e : String) : Tended (wishing e) (· ≠ e) where
  named _ h := h.1
  known s hs e' he' := by
    obtain rfl := not_not.mp he'
    exact hs.2
  later s t hs ht hspares := by
    have hwishes := (hspares e fun hne => hne rfl).wishes
    exact ⟨⟨ht, hwishes.known hs.2⟩, hwishes⟩
  tick env suppress := (tick_follows env suppress).coarsen (fun _ hs => hs.1) fun s t hs ht =>
    ⟨⟨ht.1, ht.2.wishes.known hs.2⟩, ht.2.wishes⟩
  start := by
    refine recoverResets_keeps (permits_wishing e) fun s hs => ?_
    have hwishes := (follows_recovered s).wishes (e := e)
    exact ⟨⟨(follows_recovered s).named hs.1, hwishes.known hs.2⟩, hwishes⟩

/-- The commands of a run do not name a client. -/
def Avoids (e : String) (_ : Panel) : Happening → Prop
  | .command env _ c => e ∉ c.names env
  | .outside => True

/-- What is wanted of a client, and whose it is, changes by commands that name it only, unless
it is deleted. -/
theorem wish_lasts {es : List Happening} {row : ManagedRow} (hs : Attained s)
    (hrow : s.managed.get? e = some row) (hrun : Run (Guarded Happens (Avoids e)) s es t) :
    (∃ row', t.managed.get? e = some row' ∧
      (row'.wanted = row.wanted ∨
        t.policy.clients.get? e = none ∧ row'.desired.doc = .dict [])) ∧
    ∀ u', t.policy.clients.get? e = some u' →
      ∃ u, s.policy.clients.get? e = some u ∧ u.owner = u'.owner := by
  have hstep : ∀ a ev b, (wishing e).inv a → Guarded Happens (Avoids e) a ev b →
      (wishing e).Later a b := by
    intro a ev b ha hstep
    obtain ⟨hhappens, havoids⟩ := hstep
    cases hhappens with
    | command env script c =>
        exact (tended_wishing e).command (fun e' he' _ _ _ heq => havoids (heq ▸ he')) ha
    | outside haside =>
        have hwishes : Wishes e a b :=
          ⟨fun row hrow => ⟨row, haside.managed ▸ hrow, .refl row⟩,
            fun u hu => ⟨u, haside.clients ▸ hu, rfl⟩⟩
        exact ⟨⟨fun e row hrow => ha.1 e row (haside.managed ▸ hrow), hwishes.known ha.2⟩, hwishes⟩
  have hstart : (wishing e).inv s := ⟨hs.named, row, hrow⟩
  have hwishes : Wishes e s t := hrun.related (R := Wishes e) hstart
    (fun a ev b ha h => (hstep a ev b ha h).1) (.refl e) (fun _ _ _ => .trans)
    fun a ev b ha h => (hstep a ev b ha h).2
  obtain ⟨row', hrow', hsucceeds⟩ := hwishes.row row hrow
  exact ⟨⟨row', hrow', hsucceeds.imp And.left id⟩, hwishes.owner⟩

/-- The panel after a tick. -/
def deskTicked : Panel :=
  ((Command.tick true).run noon (deskSold.facing [])).2

/-- A tick does not change what is wanted. -/
theorem wish_lasts_deskTicked : ∃ row', deskTicked.managed.get? "d-mika" = some row' ∧
    row'.wanted = ((deskSold.managed.get? "d-mika").get (by decide +kernel)).wanted := by
  have hrow : deskSold.managed.get? "d-mika" =
      some ((deskSold.managed.get? "d-mika").get (by decide +kernel)) := by
    rw [Option.some_get]
  have hrun : Run (Guarded Happens (Avoids "d-mika")) deskSold [.command noon [] (.tick true)]
      deskTicked :=
    Run.single ⟨.command noon [] _, List.not_mem_nil⟩
  obtain ⟨⟨row', hrow', hwanted | ⟨hnone, -⟩⟩, -⟩ := wish_lasts attained_deskSold hrow hrun
  · exact ⟨row', hrow', hwanted⟩
  · have hknown : (deskTicked.policy.clients.get? "d-mika").isSome = true := by decide +kernel
    rw [hnone] at hknown
    cases hknown

/-! ## Records of somebody else, and interrupted resets -/

/-- The frame of a resting client permits writes to the others. -/
theorem permits_resting (e : String) : Permits (resting e) (· ≠ e) where
  named _ h := h.1
  later s t hs hfollows hspares := by
    have hrests := Rests.of_spares hs.2.known (hspares e fun hne => hne rfl)
    exact ⟨⟨hfollows.named hs.1, hrests.resting hs.2⟩, fun _ => hrests⟩

/-- The frame of a resting client is tended. -/
theorem tended_resting (e : String) : Tended (resting e) (· ≠ e) where
  named _ h := h.1
  known s hs e' he' := by
    obtain rfl := not_not.mp he'
    obtain ⟨row, hrow, -⟩ := hs.2.known
    exact ⟨row, hrow⟩
  later s t hs ht hspares := by
    have hrests := Rests.of_spares hs.2.known (hspares e fun hne => hne rfl)
    exact ⟨⟨ht, hrests.resting hs.2⟩, fun _ => hrests⟩
  tick := tick_resting e
  start := by
    refine recoverResets_keeps (permits_resting e) fun s hs => ?_
    have hrests : Rests e s
        { s with managed := s.managed.mapRows fun _ => ManagedRow.recovered } := by
      refine ⟨fun row hrow => ⟨row.recovered, ?_, ?_⟩, rfl, rfl, rfl, rfl, fun _ => ⟨rfl, rfl, rfl⟩⟩
      · rw [Table.get?_mapRows, hrow]
        rfl
      · obtain ⟨row₀, hrow₀, hstate⟩ := hs.2.known
        obtain rfl := Option.some.inj (hrow.symm.trans hrow₀)
        unfold ManagedRow.recovered
        split <;> rename_i hinflight
        · refine ⟨rfl, fun hdeleted => ?_, fun _ => ⟨.inl rfl, rfl, rfl⟩⟩
          cases hdeleted
        · exact ⟨rfl, hstate, fun hhalted => ⟨hhalted, rfl, rfl⟩⟩
    exact ⟨⟨(follows_recovered s).named hs.1, hrests.resting hs.2⟩, fun _ => hrests⟩

/-- While the core holds another client under an identity, no command that does not name the
identity meters, changes, resets or deletes that client. -/
theorem foreign_record_spared {row : ManagedRow} {record : ClientRow} (hs : Attained s)
    (hrow : s.managed.get? e = some row) (hstate : row.state ≠ .deleted)
    (hrecord : s.core.get? e = some record)
    (hforeign : Core.sameSubId record.body row.desired = false)
    (env : Setting) (script : List Answer) (c : Command) (hc : e ∉ c.names env) :
    Rests e s (c.run env (s.facing script)).2 := by
  have hresting : Resting e s := ⟨⟨row, hrow, hstate⟩, .inr ⟨row, record, hrow, hrecord, hforeign⟩⟩
  exact ((tended_resting e).command (fun e' he' _ _ _ heq => hc (heq ▸ he'))
    ⟨hs.named, hresting⟩).2 hresting

/-- A tick leaves the record of somebody else. -/
theorem foreign_record_spared_deskReplaced :
    Rests "d-mika" deskReplaced ((Command.tick true).run noon (deskReplaced.facing [])).2 := by
  have hrow : deskReplaced.managed.get? "d-mika" =
      some ((deskReplaced.managed.get? "d-mika").get (by decide +kernel)) := by
    rw [Option.some_get]
  have hrecord : deskReplaced.core.get? "d-mika" =
      some ((deskReplaced.core.get? "d-mika").get (by decide +kernel)) := by
    rw [Option.some_get]
  exact foreign_record_spared attained_deskReplaced hrow (by decide +kernel) hrecord
    (by decide +kernel) noon [] (.tick true) List.not_mem_nil

/-- An operation with an unknown outcome: it is neither carried out nor forgotten. -/
structure Unresolved (e : String) (row : ManagedRow) (resets : ℕ) (s : Panel) : Prop where
  named : Named s
  row : ∃ row', s.managed.get? e = some row' ∧ Halted row' ∧ row'.op = row.op ∧
    row'.opId = row.opId ∧ row'.wanted = row.wanted ∧ row'.state ≠ .deleted
  resets : s.resets.count e = resets

/-- An unresolved client rests. -/
theorem Unresolved.resting {row : ManagedRow} {resets : ℕ} (h : Unresolved e row resets s)
    (hop : row.op ≠ .none) : Resting e s := by
  obtain ⟨row', hrow', hhalted, hop', -, -, hstate⟩ := h.row
  exact ⟨⟨row', hrow', hstate⟩, .inl ⟨row', hrow', hhalted, hop' ▸ hop⟩⟩

/-- A client that rests stays unresolved. -/
theorem Unresolved.rests {row : ManagedRow} {resets : ℕ} (h : Unresolved e row resets s)
    (ht : Named t) (hrests : Rests e s t) : Unresolved e row resets t := by
  obtain ⟨row', hrow', hhalted, hop, hid, hwanted, -⟩ := h.row
  obtain ⟨row'', hrow'', hwanted', hstate', hkept⟩ := hrests.row row' hrow'
  obtain ⟨hhalted', hop', hid'⟩ := hkept hhalted
  exact ⟨ht, ⟨row'', hrow'', hhalted', hop'.trans hop, hid'.trans hid, hwanted'.trans hwanted,
    hstate'⟩, hrests.resets.trans h.resets⟩

/-- The restart marks what was interrupted. -/
theorem start_unresolved {env : Setting} {script : List Answer} {row : ManagedRow} (hs : Named s)
    (hrow : s.managed.get? e = some row) (hstate : row.state = .resetInflight)
    (hstart : (Command.start.run env (s.facing script)) = (.ok (), t)) :
    Unresolved e row (s.resets.count e) t := by
  have hpost : (Command.start.run env).wp
      (fun _ t => Unresolved e row (s.resets.count e) t) (fun _ _ => True) (s.facing script) := by
    change (recoverResets).wp _ _ _
    unfold recoverResets commit
    rw [Tx.wp_bind]
    apply Tx.wp_mono (point_books (s.facing script) trivial)
    · intro _ u hu
      obtain ⟨hmanaged, -, -, hresets, -⟩ := hu.1.2
      refine ⟨?_, ⟨row.recovered, ?_, ?_⟩, ?_⟩
      · exact (follows_recovered u).named fun e row hrow => hs e row (hmanaged ▸ hrow)
      · rw [Table.get?_mapRows, hmanaged]
        exact (congrArg (Option.map ManagedRow.recovered) hrow)
      · rw [ManagedRow.recovered, if_pos hstate]
        refine ⟨.inl rfl, rfl, rfl, rfl, fun hdeleted => ?_⟩
        cases hdeleted
      · exact congrArg (List.count e) hresets
    · exact fun _ _ _ => trivial
  exact Tx.wp_ok (q := fun _ t => Unresolved e row (s.resets.count e) t) hpost hstart

/-- A reset that was under way when the process ended is not carried out again after the
restart, in any run of commands that do not name the client: its row waits with the same
operation, and the core is not asked to reset the client. -/
theorem uncertain_reset_not_replayed {es : List Happening} {u : Panel} {row : ManagedRow}
    {env : Setting} {script : List Answer} (hs : Attained s) (hrow : s.managed.get? e = some row)
    (hstate : row.state = .resetInflight) (hop : row.op = .reset)
    (hstart : (Command.start.run env (s.facing script)) = (.ok (), u))
    (hrun : Run (Guarded Happens (Avoids e)) u es t) :
    (∃ row', t.managed.get? e = some row' ∧ (row'.state = .uncertain ∨ row'.state = .conflict) ∧
      row'.op = .reset ∧ row'.opId = row.opId ∧ row'.wanted = row.wanted) ∧
    t.resets.count e = s.resets.count e := by
  have hbusy : row.op ≠ .none := by
    rw [hop]
    decide
  have hlast : Unresolved e row (s.resets.count e) t := by
    refine hrun.invariant (start_unresolved hs.named hrow hstate hstart) fun a ev b ha hstep => ?_
    obtain ⟨hhappens, havoids⟩ := hstep
    cases hhappens with
    | command env script c =>
        have hresting := ha.resting hbusy
        have hlater : (resting e).Later a (c.run env (a.facing script)).2 :=
          (tended_resting e).command (fun e' he' _ _ _ heq => havoids (heq ▸ he'))
            ⟨ha.named, hresting⟩
        exact ha.rests hlater.1.1 (hlater.2 hresting)
    | outside haside =>
        refine ⟨fun e row hrow => ha.named e row (haside.managed ▸ hrow), ?_, ?_⟩
        · rw [haside.managed]
          exact ha.row
        · rw [haside.resets]
          exact ha.resets
  obtain ⟨row', hrow', hhalted, hop', hid, hwanted, -⟩ := hlast.row
  exact ⟨⟨row', hrow', hhalted, hop'.trans hop, hid, hwanted⟩, hlast.resets⟩

/-- The process ended during a reset, and a tick follows the restart. -/
theorem uncertain_reset_not_replayed_deskInterrupted :
    ((Command.tick true).run noon
      ((Command.start.run noon (deskInterrupted.facing [])).2.facing [])).2.resets.count "d-mika" =
        deskInterrupted.resets.count "d-mika" := by
  have hrow : deskInterrupted.managed.get? "d-mika" =
      some ((deskInterrupted.managed.get? "d-mika").get (by decide +kernel)) := by
    rw [Option.some_get]
  have hstart : Command.start.run noon (deskInterrupted.facing []) =
      (.ok (), (Command.start.run noon (deskInterrupted.facing [])).2) := rfl
  have hrun : Run (Guarded Happens (Avoids "d-mika"))
      (Command.start.run noon (deskInterrupted.facing [])).2 [.command noon [] (.tick true)]
      ((Command.tick true).run noon
        ((Command.start.run noon (deskInterrupted.facing [])).2.facing [])).2 :=
    Run.single ⟨.command noon [] _, List.not_mem_nil⟩
  exact (uncertain_reset_not_replayed attained_deskInterrupted hrow (by decide +kernel)
    (by decide +kernel) hstart hrun).2

end Frames

end Management
end DarkXray
