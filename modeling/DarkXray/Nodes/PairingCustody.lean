import DarkXray.Library.Rotations
import DarkXray.Nodes.Pairing

/-!
# Custody of the tokens of an enrollment

The Agents and the journal of the Hub form a keyring: an endpoint is a lock, and a pending
enrollment is a claim on it, active from the moment at which the rotation is announced.  The
invariant says that every request that was sent is covered by a claim or has no effect, and
that every success that an Agent has reported confirms its token.

Main results:

- Theorems {lit}`Site.Inv.send`, {lit}`Site.Inv.served` and {lit}`Site.Inv.installed`: the
  messages and the Agents keep the invariant.
- Theorems {lit}`Site.Inv.enter`, {lit}`Site.Inv.revise` and {lit}`Site.Inv.settle`: an
  enrollment that begins, goes on or ends keeps it, too.
-/

namespace DarkXray
namespace Nodes
namespace Pairing

open Library

/-! ## The keyring -/

section Custody

variable (cipher : Cipher)

/-- The rotations of an enrollment, from the bootstrap token to the candidate and from both
to the disposal token. -/
def Row.leads (r : Row) (x y : String) : Prop :=
  cipher.decrypt r.bootstrapEnc = some x ∧ cipher.decrypt r.candidateEnc = some y ∨
    (∃ e, r.disposalEnc = some e ∧ cipher.decrypt e = some y) ∧
      (cipher.decrypt r.bootstrapEnc = some x ∨ cipher.decrypt r.candidateEnc = some x)

/-- The claim of an enrollment. -/
def Row.claim (r : Row) : Claim String String where
  lock := r.origin
  leads := r.leads cipher
  active := r.phase = .rotating

/-- The keyring that the tables of the Hub and the Agents represent. -/
def Site.keyring (s : Site) : Keyring String String String where
  key o := (s.agents.get? o).map Agent.token
  changes o := ((s.agents.get? o).map Agent.changes).getD 0
  used := {x | x ∈ s.tokens}
  claims a := (s.pairings.get? a).map (Row.claim cipher)
  closed := {a | s.history.get? a ≠ none ∨ s.cancellations.get? a ≠ none}

/-- The journal can be read, and a disposal token is a new one. -/
structure Row.Sound (r : Row) (tokens : List String) : Prop where
  opens : ∃ b c, cipher.decrypt r.bootstrapEnc = some b ∧ cipher.decrypt r.candidateEnc = some c ∧
    b ∈ tokens ∧ c ∈ tokens ∧
      ∀ e, r.disposalEnc = some e → ∃ d, cipher.decrypt e = some d ∧ d ∈ tokens ∧ d ≠ b ∧ d ≠ c
  cancelling : r.cancelling = r.disposalEnc.isSome
  rotating : r.cancelling = true → r.phase = .rotating

/-- Rotations may have been sent for an attempt. -/
def Site.Announced (s : Site) (a : String) : Prop :=
  (∃ r, s.pairings.get? a = some r ∧ r.phase = .rotating) ∨ s.history.get? a ≠ none ∨
    ∃ x, s.cancellations.get? a = some x ∧ x.outcome = .discardedAfterRotation

/-- A request that may be sent. -/
structure Proper (s : Site) (q : Request) : Prop where
  known : (s.keyring cipher).Known q.attempt
  covered : ∀ v, q.order = .rotateToken v →
    (s.keyring cipher).Covered q.attempt q.origin q.auth v
  announced : q.order ≠ .health → s.Announced q.attempt

/-- The invariant of the enrollment. -/
structure Site.Inv (s : Site) : Prop where
  keyring : (s.keyring cipher).Inv
  rows : ∀ a r, s.pairings.get? a = some r → r.Sound cipher s.tokens
  apart : ∀ a, s.history.get? a ≠ none → s.cancellations.get? a = none
  requests : ∀ q ∈ s.requests, Proper cipher s q
  answers : ∀ x ∈ s.answers, ∀ body n i, x.reply = .answered body n i →
    ∃ q, s.requests[x.request]? = some q ∧
      (s.keyring cipher).Confirmed q.attempt q.origin q.auth x.changes

/-- What a thread may rely on. -/
structure Site.Onward (s t : Site) : Prop where
  keyring : (s.keyring cipher).Onward (t.keyring cipher)
  requests : ∀ (i : ℕ) q, s.requests[i]? = some q → t.requests[i]? = some q
  answers : ∀ x ∈ s.answers, x ∈ t.answers
  recent : ∀ x ∈ t.answers, x ∈ s.answers ∨
    ∃ q, t.requests[x.request]? = some q ∧ (s.keyring cipher).changes q.origin ≤ x.changes
  history : ∀ a x, s.history.get? a = some x → t.history.get? a = some x
  cancellations : ∀ a x, s.cancellations.get? a = some x → t.cancellations.get? a = some x
  announced : ∀ a, s.Announced a → t.Announced a

/-- The Agent has reported a success to a token that was presented for an attempt. -/
def Shown (s : Site) (a o x : String) (n : ℕ) : Prop :=
  ∃ answer ∈ s.answers, ∃ q body nodeId installationId,
    s.requests[answer.request]? = some q ∧ q.attempt = a ∧ q.origin = o ∧ q.auth = x ∧
      answer.changes = n ∧ answer.reply = .answered body nodeId installationId

/-- A Node is registered with a candidate that its Agent has accepted. -/
structure Registered (s t : Site) (a : String) (r : Row) : Prop where
  pairing : s.pairings.get? a = some r
  node : ∃ node, t.nodes.get? r.nodeId = some node ∧ node.origin = r.origin ∧
    node.tokenEnc = r.candidateEnc
  shown : ∃ c n, cipher.decrypt r.candidateEnc = some c ∧ Shown s a r.origin c n ∧
    ((t.keyring cipher).changes r.origin = n → (t.keyring cipher).key r.origin = some c)

/-- The tokens of an enrollment are given up. -/
structure Discarded (s t : Site) (a : String) (r : Row) : Prop where
  pairing : s.pairings.get? a = some r
  spent : ∀ x, cipher.decrypt r.bootstrapEnc = some x ∨ cipher.decrypt r.candidateEnc = some x →
    (t.keyring cipher).Spent r.origin x

/-- One step of the enrollment. -/
structure Site.Advance (s t : Site) : Prop where
  onward : s.Onward cipher t
  registered : ∀ a x, s.history.get? a = none → t.history.get? a = some x →
    ∃ r, Registered cipher s t a r
  discarded : ∀ a x, s.cancellations.get? a = none → t.cancellations.get? a = some x →
    x.outcome = .discardedAfterRotation → ∃ r, Discarded cipher s t a r

variable {cipher} {s t u : Site} {a o x : String} {n : ℕ} {r r' : Row} {q : Request}

theorem Site.Onward.refl (s : Site) : s.Onward cipher s where
  keyring := .refl _
  requests _ _ := id
  answers _ := id
  recent _ := .inl
  history _ _ := id
  cancellations _ _ := id
  announced _ := id

theorem Site.Onward.trans (h : s.Onward cipher t) (h' : t.Onward cipher u) :
    s.Onward cipher u where
  keyring := h.keyring.trans h'.keyring
  requests i q hq := h'.requests i q (h.requests i q hq)
  answers x hx := h'.answers x (h.answers x hx)
  recent x hx := by
    rcases h'.recent x hx with hx' | ⟨q, hq, hle⟩
    · rcases h.recent x hx' with hx'' | ⟨q, hq, hle⟩
      · exact .inl hx''
      · exact .inr ⟨q, h'.requests _ q hq, hle⟩
    · exact .inr ⟨q, hq, (h.keyring.changes q.origin).trans hle⟩
  history a x hx := h'.history a x (h.history a x hx)
  cancellations a x hx := h'.cancellations a x (h.cancellations a x hx)
  announced a ha := h'.announced a (h.announced a ha)

/-- A step at which no attempt ends. -/
theorem Site.Onward.advance (h : s.Onward cipher t) (hhistory : t.history = s.history)
    (hcancellations : t.cancellations = s.cancellations) : s.Advance cipher t where
  onward := h
  registered a x hnone hx := by
    rw [hhistory, hnone] at hx
    cases hx
  discarded a x hnone hx := by
    rw [hcancellations, hnone] at hx
    cases hx

theorem Site.Advance.refl (s : Site) : s.Advance cipher s :=
  (Site.Onward.refl s).advance rfl rfl

theorem Proper.later (h : Proper cipher s q) (hrel : s.Onward cipher t) : Proper cipher t q where
  known := hrel.keyring.known _ h.known
  covered v hv := hrel.keyring.covered _ _ _ _ (h.covered v hv)
  announced hne := hrel.announced _ (h.announced hne)

theorem Shown.later (h : Shown s a o x n) (hrel : s.Onward cipher t) : Shown t a o x n := by
  obtain ⟨answer, hanswer, q, body, i, j, hq, hrest⟩ := h
  exact ⟨answer, hrel.answers _ hanswer, q, body, i, j, hrel.requests _ q hq, hrest⟩

/-- What a success shows. -/
theorem Shown.confirmed (h : Shown s a o x n) (hinv : s.Inv cipher) :
    (s.keyring cipher).Confirmed a o x n := by
  obtain ⟨answer, hanswer, q, body, i, j, hq, rfl, rfl, rfl, rfl, hreply⟩ := h
  obtain ⟨q', hq', hconfirmed⟩ := hinv.answers answer hanswer body i j hreply
  obtain rfl : q = q' := Option.some.inj (hq.symm.trans hq')
  exact hconfirmed

/-- An attempt that is pending has not ended. -/
theorem Site.Inv.unsettled (h : s.Inv cipher) (hr : s.pairings.get? a = some r) :
    s.history.get? a = none ∧ s.cancellations.get? a = none := by
  have hopen : a ∉ (s.keyring cipher).closed := by
    intro hclosed
    have hnone := h.keyring.closed a hclosed
    simp [Site.keyring, hr] at hnone
  simpa [Site.keyring, not_or] using hopen

/-- The messages and receipts stay when the keyring moves on. -/
theorem Site.Inv.follow (h : s.Inv cipher) (hring : (t.keyring cipher).Inv)
    (hrel : s.Onward cipher t) (hrows : ∀ a r, t.pairings.get? a = some r → r.Sound cipher t.tokens)
    (hapart : ∀ a, t.history.get? a ≠ none → t.cancellations.get? a = none)
    (hrequests : t.requests = s.requests) (hanswers : t.answers = s.answers) : t.Inv cipher where
  keyring := hring
  rows := hrows
  apart := hapart
  requests q hq := (h.requests q (hrequests ▸ hq)).later hrel
  answers x hx body n i hreply := by
    obtain ⟨q, hq, hconfirmed⟩ := h.answers x (hanswers ▸ hx) body n i hreply
    exact ⟨q, hrel.requests _ q hq, hrel.keyring.confirmed _ _ _ _ hconfirmed⟩

/-! ### Messages -/

/-- Another request. -/
def Site.send (s : Site) (q : Request) : Site :=
  { s with requests := s.requests ++ [q] }

theorem Site.Inv.send (h : s.Inv cipher) (hq : Proper cipher s q) :
    (s.send q).Inv cipher ∧ s.Advance cipher (s.send q) := by
  have hkept : ∀ (i : ℕ) q', s.requests[i]? = some q' → (s.requests ++ [q])[i]? = some q' := by
    intro i q' hi
    obtain ⟨hlt, -⟩ := List.getElem?_eq_some_iff.mp hi
    rw [List.getElem?_append_left hlt, hi]
  have hrel : s.Onward cipher (s.send q) :=
    ⟨.refl _, hkept, fun _ => id, fun _ => .inl, fun _ _ => id, fun _ _ => id, fun _ => id⟩
  refine ⟨⟨h.keyring, h.rows, h.apart, fun q' hq' => ?_, fun x hx body n i hreply => ?_⟩,
    hrel.advance rfl rfl⟩
  · rcases List.mem_append.mp hq' with hold | hnew
    · exact (h.requests q' hold).later hrel
    · obtain rfl := List.mem_singleton.mp hnew
      exact hq.later hrel
  · obtain ⟨q', hq', hconfirmed⟩ := h.answers x hx body n i hreply
    exact ⟨q', hkept _ q' hq', hconfirmed⟩

/-- What the Agent does with a request: it ends with the token that it had, or with the one
that the request asks for and an answer to the holder of its token. -/
theorem serve_cases (token : String) (q : Request) (service : Service) :
    (serve token q service).2 = token ∧
        (∀ body n i, (serve token q service).1 = .answered body n i → q.auth = token) ∨
      q.auth = token ∧ q.order = .rotateToken (serve token q service).2 := by
  cases service with
  | refused status nodeId installationId => exact .inl ⟨rfl, fun body n i hreply => by cases hreply⟩
  | carried health fsync nodeId installationId =>
      simp only [serve]
      split
      · exact .inl ⟨rfl, fun body n i hreply => by cases hreply⟩
      · rename_i hauth
        rw [ne_eq, not_not] at hauth
        cases horder : q.order with
        | health => exact .inl ⟨rfl, fun _ _ _ _ => hauth⟩
        | idle => exact .inl ⟨rfl, fun _ _ _ _ => hauth⟩
        | rotateToken value =>
            dsimp only
            split
            · exact .inr ⟨hauth, rfl⟩
            · exact .inl ⟨rfl, fun _ _ _ _ => hauth⟩

/-- The keyring after an Agent has got another token. -/
theorem keyring_served {agent : Agent} {token : String} {answers : List Answer}
    (hagent : s.agents.get? o = some agent) :
    Site.keyring cipher { s with
        agents := s.agents.update o fun a => { a with token := token }
        answers := answers } = (s.keyring cipher).rotated o token := by
  simp only [Site.keyring, Keyring.rotated, Keyring.mk.injEq, and_true]
  constructor
  · ext1 o'
    rw [Table.get?_update, Function.update_apply]
    by_cases ho' : o' = o
    · simp [ho', hagent]
    · simp [ho']
  · ext1 o'
    rw [Table.get?_update]
    by_cases ho' : o' = o
    · simp [ho', hagent]
    · simp [ho']

/-- An Agent serves a request. -/
theorem Site.Inv.served (h : s.Inv cipher) (i : ℕ) (service : Service) :
    (s.served i service).Inv cipher ∧ s.Advance cipher (s.served i service) := by
  simp only [Site.served]
  cases hq : s.requests[i]? with
  | none => exact ⟨h, .refl s⟩
  | some q =>
      dsimp only
      cases hagent : s.agents.get? q.origin with
      | none => exact ⟨h, .refl s⟩
      | some agent =>
          dsimp only
          generalize hserved : serve agent.token q service = result
          have hproper := h.requests q (List.mem_of_getElem? hq)
          have hkey : (s.keyring cipher).key q.origin = some agent.token := by
            simp [Site.keyring, hagent]
          have hchanges : (s.keyring cipher).changes q.origin = agent.changes := by
            simp [Site.keyring, hagent]
          have hcases := serve_cases agent.token q service
          rw [hserved] at hcases
          have hcovered : (s.keyring cipher).Covered q.attempt q.origin agent.token result.2 := by
            rcases hcases with ⟨hsame, -⟩ | ⟨hauth, horder⟩
            · exact .inr (.inr hsame.symm)
            · exact hauth ▸ hproper.covered _ horder
          obtain ⟨hinv, hring⟩ := h.keyring.rotate hcovered hkey
          have hkeyring : Site.keyring cipher { s with
              agents := s.agents.update q.origin fun a => { a with token := result.2 }
              answers := s.answers ++ [⟨i, agent.changes, result.1⟩] } =
                (s.keyring cipher).rotated q.origin result.2 :=
            keyring_served hagent
          rw [← hkeyring] at hinv hring
          have hrel : s.Onward cipher { s with
              agents := s.agents.update q.origin fun a => { a with token := result.2 }
              answers := s.answers ++ [⟨i, agent.changes, result.1⟩] } := by
            refine ⟨hring, fun _ _ => id, fun _ hx => List.mem_append_left _ hx, fun x hx => ?_,
              fun _ _ => id, fun _ _ => id, fun _ => id⟩
            refine (List.mem_append.mp hx).imp id fun hnew => ?_
            obtain rfl := List.mem_singleton.mp hnew
            exact ⟨q, hq, hchanges.le⟩
          refine ⟨⟨hinv, h.rows, h.apart, fun q' hq' => (h.requests q' hq').later hrel,
            fun x hx body n j hreply => ?_⟩, hrel.advance rfl rfl⟩
          rcases List.mem_append.mp hx with hold | hnew
          · obtain ⟨q', hq', hconfirmed⟩ := h.answers x hold body n j hreply
            exact ⟨q', hq', hring.confirmed _ _ _ _ hconfirmed⟩
          · obtain rfl := List.mem_singleton.mp hnew
            have hauth : q.auth = agent.token := by
              rcases hcases with ⟨-, hheld⟩ | ⟨hauth, -⟩
              · exact hheld body n j hreply
              · exact hauth
            refine ⟨q, hq, ?_⟩
            rw [hkeyring, hauth, ← hchanges]
            exact h.keyring.confirm hcovered hkey hproper.known

/-- The keyring after a token was set locally. -/
theorem keyring_installed {token : String} (hnew : token ∉ s.tokens) :
    (s.installed o token).keyring cipher = (s.keyring cipher).changed o token := by
  rw [Site.installed, if_neg hnew]
  simp only [Site.keyring, Keyring.changed, Keyring.mk.injEq, and_true]
  refine ⟨?_, ?_, ?_⟩
  · ext1 o'
    rw [Table.get?_upsert, Function.update_apply]
    by_cases ho' : o' = o
    · cases s.agents.get? o <;> simp [ho']
    · simp [ho']
  · ext1 o'
    rw [Table.get?_upsert, Function.update_apply]
    by_cases ho' : o' = o
    · cases s.agents.get? o <;> simp [ho']
    · simp [ho']
  · ext x
    simp

/-- A row can be read with more tokens, too. -/
theorem Row.Sound.mono {tokens tokens' : List String} (h : r.Sound cipher tokens)
    (hsub : tokens ⊆ tokens') : r.Sound cipher tokens' := by
  obtain ⟨b, c, hb, hc, hbt, hct, hd⟩ := h.opens
  refine ⟨⟨b, c, hb, hc, hsub hbt, hsub hct, fun e he => ?_⟩, h.cancelling, h.rotating⟩
  obtain ⟨d, hde, hdt, hne⟩ := hd e he
  exact ⟨d, hde, hsub hdt, hne⟩

/-- An Agent gets a token locally. -/
theorem Site.Inv.installed (h : s.Inv cipher) (o token : String) :
    (s.installed o token).Inv cipher ∧ s.Advance cipher (s.installed o token) := by
  by_cases hnew : token ∈ s.tokens
  · rw [Site.installed, if_pos hnew]
    exact ⟨h, .refl s⟩
  obtain ⟨hinv, hring⟩ := h.keyring.change (o := o) (k := token) hnew
  rw [← keyring_installed hnew] at hinv hring
  have hinstalled : s.installed o token = { s with
      agents := s.agents.upsert o ⟨token, 1⟩ fun a => ⟨token, a.changes + 1⟩
      tokens := token :: s.tokens } := by
    rw [Site.installed, if_neg hnew]
  rw [hinstalled] at hinv hring ⊢
  have hrel : s.Onward cipher { s with
      agents := s.agents.upsert o ⟨token, 1⟩ fun a => ⟨token, a.changes + 1⟩
      tokens := token :: s.tokens } :=
    ⟨hring, fun _ _ => id, fun _ => id, fun _ => .inl, fun _ _ => id, fun _ _ => id, fun _ => id⟩
  exact ⟨h.follow hinv hrel (fun a r hr => (h.rows a r hr).mono (List.subset_cons_self _ _))
    h.apart rfl rfl, hrel.advance rfl rfl⟩

/-! ### The journal -/

/-- The tokens of a row that can be read are those of its rotations. -/
theorem Row.Sound.orderly {tokens : List String} (h : r.Sound cipher tokens) :
    (r.claim cipher).Orderly {x | x ∈ tokens} := by
  obtain ⟨b, c, hb, hc, hbt, hct, hd⟩ := h.opens
  have hleads : ∀ x y, r.leads cipher x y → x = b ∧ y = c ∨
      (∃ e, r.disposalEnc = some e ∧ cipher.decrypt e = some y) ∧ (x = b ∨ x = c) ∧
        y ≠ b ∧ y ≠ c ∧ y ∈ tokens := by
    intro x y hxy
    simp only [Row.leads, hb, hc, Option.some.injEq] at hxy
    rcases hxy with ⟨rfl, rfl⟩ | ⟨⟨e, he, hy⟩, hx⟩
    · exact .inl ⟨rfl, rfl⟩
    · obtain ⟨d, hd', hdt, hdb, hdc⟩ := hd e he
      obtain rfl : d = y := Option.some.inj (hd'.symm.trans hy)
      exact .inr ⟨⟨e, he, hy⟩, hx.imp Eq.symm Eq.symm, hdb, hdc, hdt⟩
  refine ⟨fun x y hxy => ?_, fun x y z hxy hyz => ?_, fun x y hxy hyx => ?_⟩
  · rcases hleads x y hxy with ⟨rfl, rfl⟩ | ⟨-, hx, -, -, hyt⟩
    · exact ⟨hbt, hct⟩
    · exact ⟨by rcases hx with rfl | rfl <;> assumption, hyt⟩
  · rcases hleads x y hxy with ⟨rfl, rfl⟩ | ⟨-, -, hyb, hyc, -⟩
    · rcases hleads y z hyz with ⟨-, rfl⟩ | ⟨hz, -, -⟩
      · exact .inl ⟨hb, hc⟩
      · exact .inr ⟨hz, .inl hb⟩
    · rcases hleads y z hyz with ⟨rfl, -⟩ | ⟨-, hy, -⟩
      · exact absurd rfl hyb
      · rcases hy with rfl | rfl
        · exact absurd rfl hyb
        · exact absurd rfl hyc
  · rcases hleads x y hxy with ⟨rfl, rfl⟩ | ⟨-, -, hyb, hyc, -⟩
    · rcases hleads y x hyx with ⟨hyx', -⟩ | ⟨-, -, hxb, -⟩
      · exact hyx'.symm
      · exact absurd rfl hxb
    · rcases hleads y x hyx with ⟨rfl, -⟩ | ⟨-, hy, -⟩
      · exact absurd rfl hyb
      · rcases hy with rfl | rfl
        · exact absurd rfl hyb
        · exact absurd rfl hyc

/-- The keyring after a row was changed, and new tokens were made. -/
theorem keyring_revised {f : Row → Row} {tokens : List String} (hr : s.pairings.get? a = some r) :
    Site.keyring cipher { s with
        pairings := s.pairings.update a f
        tokens := tokens } =
      (s.keyring cipher).claimed a ((f r).claim cipher) {x | x ∈ tokens} := by
  simp only [Site.keyring, Keyring.claimed, Keyring.mk.injEq, and_true, true_and]
  ext1 b
  rw [Table.get?_update, Function.update_apply]
  by_cases hb : b = a
  · simp [hb, hr]
  · simp [hb]

/-- A pending enrollment goes on; the claim only widens, with new tokens. -/
theorem Site.Inv.revise {f : Row → Row} {tokens : List String} (h : s.Inv cipher)
    (hr : s.pairings.get? a = some r) (hsound : (f r).Sound cipher tokens)
    (horigin : (f r).origin = r.origin) (hphase : r.phase = .rotating → (f r).phase = .rotating)
    (hleads : ∀ x y, r.leads cipher x y → (f r).leads cipher x y)
    (hnew : ∀ x y, (f r).leads cipher x y → y ∉ s.tokens ∨ r.leads cipher x y)
    (htokens : s.tokens ⊆ tokens) :
    Site.Inv cipher { s with
        pairings := s.pairings.update a f
        tokens := tokens } ∧
      s.Advance cipher { s with
        pairings := s.pairings.update a f
        tokens := tokens } := by
  have hclaim : (s.keyring cipher).claims a = some (r.claim cipher) := by
    simp [Site.keyring, hr]
  obtain ⟨hhistory, hcancellations⟩ := h.unsettled hr
  have hused : (s.keyring cipher).used ⊆ {x | x ∈ tokens} := fun x hx => htokens hx
  obtain ⟨hinv, hring⟩ := h.keyring.claim (a := a) (c := (f r).claim cipher)
    (by simp [Site.keyring, hhistory, hcancellations])
    (fun a' c' hc' hlock => h.keyring.unique a' c' a _ hc' hclaim (hlock.trans horigin))
    (fun c' hc' => by
      obtain rfl := Option.some.inj (hclaim.symm.trans hc')
      exact ⟨horigin.symm, hphase, hleads⟩)
    (fun x y hxy => (hnew x y hxy).imp id fun hold => ⟨_, hclaim, hold⟩)
    hused hsound.orderly
  rw [← keyring_revised hr] at hinv hring
  have hrel : s.Onward cipher { s with
      pairings := s.pairings.update a f
      tokens := tokens } := by
    refine ⟨hring, fun _ _ => id, fun _ => id, fun _ => .inl, fun _ _ => id, fun _ _ => id,
      fun b hb => hb.imp_left fun hrow => ?_⟩
    obtain ⟨r', hr', hrotating⟩ := hrow
    by_cases hba : b = a
    · subst hba
      obtain rfl : r = r' := Option.some.inj (hr.symm.trans hr')
      exact ⟨f r, by simp [hr], hphase hrotating⟩
    · exact ⟨r', by simp [hba, hr'], hrotating⟩
  refine ⟨h.follow hinv hrel (fun b r' hr' => ?_) h.apart rfl rfl, hrel.advance rfl rfl⟩
  rw [Table.get?_update] at hr'
  split at hr'
  · rename_i hba
    rw [hba, hr, Option.map_some] at hr'
    rw [← Option.some.inj hr']
    exact hsound
  · exact (h.rows b r' hr').mono htokens

/-- A change of a row that keeps its endpoint, its phase and its tokens. -/
structure Row.Alike (r r' : Row) : Prop where
  origin : r'.origin = r.origin
  phase : r'.phase = r.phase
  bootstrapEnc : r'.bootstrapEnc = r.bootstrapEnc
  candidateEnc : r'.candidateEnc = r.candidateEnc
  cancelling : r'.cancelling = r.cancelling
  disposalEnc : r'.disposalEnc = r.disposalEnc

theorem Row.Alike.refl (r : Row) : r.Alike r :=
  ⟨rfl, rfl, rfl, rfl, rfl, rfl⟩

/-- The phase matters for the soundness of a row only when it is being cancelled. -/
theorem Row.Sound.alike {tokens : List String} (h : r.Sound cipher tokens)
    (hb : r'.bootstrapEnc = r.bootstrapEnc) (hc : r'.candidateEnc = r.candidateEnc)
    (hcancelling : r'.cancelling = r.cancelling) (hd : r'.disposalEnc = r.disposalEnc)
    (hphase : r.phase = .rotating → r'.phase = .rotating) : r'.Sound cipher tokens where
  opens := by
    rw [hb, hc, hd]
    exact h.opens
  cancelling := by rw [hcancelling, hd, h.cancelling]
  rotating hr := hphase (h.rotating (hcancelling ▸ hr))

/-- A change of a row that keeps its tokens. -/
theorem Site.Inv.revise_alike {f : Row → Row} (h : s.Inv cipher)
    (hf : ∀ r, s.pairings.get? a = some r → r.Alike (f r)) :
    (s.updatePairing a f).Inv cipher ∧ s.Advance cipher (s.updatePairing a f) := by
  cases hr : s.pairings.get? a with
  | none =>
      have hsame : s.pairings.update a f = s.pairings.update a id := by
        rw [Table.update, Table.update, Table.mk.injEq, Table.mapRows, Table.mapRows]
        apply List.map_congr_left
        intro row hrow
        by_cases hkey : row.1 = a
        · have hget : s.pairings.get? a = some row.2 := Table.get?_eq_some_iff.mpr (hkey ▸ hrow)
          rw [hr] at hget
          cases hget
        · simp [hkey]
      have hid : s.updatePairing a f = s := by
        rw [Site.updatePairing, hsame]
        simp [Table.update, Table.mapRows]
      rw [hid]
      exact ⟨h, .refl s⟩
  | some r =>
      have halike := hf r hr
      have hsound := (h.rows a r hr).alike halike.bootstrapEnc halike.candidateEnc
        halike.cancelling halike.disposalEnc fun hrotating => halike.phase.trans hrotating
      have hleads : ∀ x y, (f r).leads cipher x y ↔ r.leads cipher x y := by
        intro x y
        rw [Row.leads, Row.leads, halike.bootstrapEnc, halike.candidateEnc, halike.disposalEnc]
      exact h.revise hr hsound halike.origin (fun hrotating => halike.phase.trans hrotating)
        (fun x y => (hleads x y).mpr) (fun x y hxy => .inr ((hleads x y).mp hxy))
        (List.Subset.refl _)

/-- An enrollment begins, with a new attempt and a new candidate. -/
theorem Site.Inv.enter {code : PairCode} {chance : Chance} (h : s.Inv cipher)
    (hfresh : chance.Fresh s)
    (horigin : ∀ a r, s.pairings.get? a = some r → r.origin ≠ code.origin) :
    Site.Inv cipher { s with
        pairings := s.pairings.insert chance.attempt (newRow cipher code chance)
        tokens := code.token :: chance.token :: s.tokens } ∧
      s.Advance cipher { s with
        pairings := s.pairings.insert chance.attempt (newRow cipher code chance)
        tokens := code.token :: chance.token :: s.tokens } := by
  obtain ⟨htoken, hpairing, hhistory, hcancellations, -⟩ := hfresh
  have hsub : s.tokens ⊆ code.token :: chance.token :: s.tokens := fun x hx => by simp [hx]
  have hsound : (newRow cipher code chance).Sound cipher
      (code.token :: chance.token :: s.tokens) := by
    refine ⟨⟨code.token, chance.token, cipher.decrypt_encrypt _ _, cipher.decrypt_encrypt _ _,
      by simp, by simp, fun e he => ?_⟩, rfl, fun hcancelling => ?_⟩
    · cases he
    · cases hcancelling
  have hkeyring : Site.keyring cipher { s with
      pairings := s.pairings.insert chance.attempt (newRow cipher code chance)
      tokens := code.token :: chance.token :: s.tokens } =
        (s.keyring cipher).claimed chance.attempt ((newRow cipher code chance).claim cipher)
          {x | x ∈ code.token :: chance.token :: s.tokens} := by
    simp only [Site.keyring, Keyring.claimed, Keyring.mk.injEq, and_true, true_and]
    ext1 b
    rw [Table.get?_insert hpairing, Function.update_apply]
    split <;> rfl
  have hnone : (s.keyring cipher).claims chance.attempt = none := by
    simp [Site.keyring, hpairing]
  have hused : (s.keyring cipher).used ⊆ {x | x ∈ code.token :: chance.token :: s.tokens} :=
    fun x hx => hsub hx
  obtain ⟨hinv, hring⟩ := h.keyring.claim (a := chance.attempt)
    (c := (newRow cipher code chance).claim cipher)
    (by simp [Site.keyring, hhistory, hcancellations])
    (fun a' c' hc' hlock => by
      obtain ⟨r', hr', rfl⟩ := Option.map_eq_some_iff.mp hc'
      exact absurd hlock (horigin a' r' hr'))
    (fun c' hc' => by
      rw [hnone] at hc'
      cases hc')
    (fun x y hxy => by
      rcases hxy with ⟨-, hy⟩ | ⟨⟨e, he, -⟩, -⟩
      · rw [newRow, cipher.decrypt_encrypt] at hy
        exact .inl (Option.some.inj hy ▸ htoken)
      · cases he)
    hused hsound.orderly
  rw [← hkeyring] at hinv hring
  have hrel : s.Onward cipher { s with
      pairings := s.pairings.insert chance.attempt (newRow cipher code chance)
      tokens := code.token :: chance.token :: s.tokens } := by
    refine ⟨hring, fun _ _ => id, fun _ => id, fun _ => .inl, fun _ _ => id, fun _ _ => id,
      fun b hb => hb.imp_left fun hrow => ?_⟩
    obtain ⟨r', hr', hrotating⟩ := hrow
    exact ⟨r', Table.get?_insert_of_some hr' _ _, hrotating⟩
  refine ⟨h.follow hinv hrel (fun b r' hr' => ?_) h.apart rfl rfl, hrel.advance rfl rfl⟩
  rw [Table.get?_insert hpairing] at hr'
  split at hr'
  · rw [← Option.some.inj hr']
    exact hsound
  · exact (h.rows b r' hr').mono hsub

/-- An attempt ends: its row goes, and it gets one receipt. -/
structure Settles (s t : Site) (a : String) : Prop where
  pairings : t.pairings = s.pairings.erase a
  agents : t.agents = s.agents
  tokens : t.tokens = s.tokens
  requests : t.requests = s.requests
  answers : t.answers = s.answers
  history : ∀ b, b ≠ a → t.history.get? b = s.history.get? b
  cancellations : ∀ b, b ≠ a → t.cancellations.get? b = s.cancellations.get? b
  once : t.history.get? a ≠ none ∧ t.cancellations.get? a = none ∨
    t.history.get? a = none ∧ t.cancellations.get? a ≠ none

/-- The keyring after an attempt has ended. -/
theorem Settles.keyring (h : Settles s t a) :
    t.keyring cipher = (s.keyring cipher).released a := by
  simp only [Site.keyring, Keyring.released, h.agents, h.tokens, h.pairings, Keyring.mk.injEq,
    true_and]
  constructor
  · ext1 b
    rw [Table.get?_erase, Function.update_apply]
    split <;> rfl
  · ext b
    by_cases hb : b = a
    · subst hb
      rcases h.once with ⟨hsome, -⟩ | ⟨-, hsome⟩ <;> simp [hsome]
    · simp [h.history b hb, h.cancellations b hb, hb]

/-- Ending an attempt keeps the invariant when its rotations are over. -/
theorem Site.Inv.settle (h : s.Inv cipher) (hr : s.pairings.get? a = some r)
    (hsettles : Settles s t a)
    (hgone : r.phase = .rotating → ∀ x y, r.leads cipher x y → x ≠ y →
      (s.keyring cipher).key r.origin ≠ some x)
    (hannounced : r.phase = .rotating → t.Announced a) : t.Inv cipher ∧ s.Onward cipher t := by
  have hclaim : (s.keyring cipher).claims a = some (r.claim cipher) := by
    simp [Site.keyring, hr]
  obtain ⟨hinv, hring⟩ := h.keyring.release hclaim hgone
  rw [← hsettles.keyring] at hinv hring
  obtain ⟨hhistory, hcancellations⟩ := h.unsettled hr
  have hkept : ∀ b r', s.pairings.get? b = some r' → b ≠ a → t.pairings.get? b = some r' := by
    intro b r' hr' hb
    rw [hsettles.pairings, Table.get?_erase, if_neg hb, hr']
  have hrel : s.Onward cipher t := by
    refine ⟨hring, fun i q hq => hsettles.requests ▸ hq, fun x hx => hsettles.answers ▸ hx,
      fun x hx => .inl (hsettles.answers ▸ hx), fun b x hx => ?_, fun b x hx => ?_, fun b hb => ?_⟩
    · rw [hsettles.history b (by
        rintro rfl
        rw [hhistory] at hx
        cases hx), hx]
    · rw [hsettles.cancellations b (by
        rintro rfl
        rw [hcancellations] at hx
        cases hx), hx]
    · rcases hb with ⟨r', hr', hrotating⟩ | hpast | ⟨x, hx, houtcome⟩
      · by_cases hba : b = a
        · subst hba
          obtain rfl : r = r' := Option.some.inj (hr.symm.trans hr')
          exact hannounced hrotating
        · exact .inl ⟨r', hkept b r' hr' hba, hrotating⟩
      · have hba : b ≠ a := fun heq => hpast (heq ▸ hhistory)
        exact .inr (.inl (by rwa [hsettles.history b hba]))
      · have hba : b ≠ a := by
          rintro rfl
          rw [hcancellations] at hx
          cases hx
        exact .inr (.inr ⟨x, by rwa [hsettles.cancellations b hba], houtcome⟩)
  refine ⟨h.follow hinv hrel (fun b r' hr' => ?_) (fun b hb => ?_) hsettles.requests
    hsettles.answers, hrel⟩
  · rw [hsettles.pairings, Table.get?_erase] at hr'
    split at hr'
    · cases hr'
    · rw [hsettles.tokens]
      exact h.rows b r' hr'
  · by_cases hba : b = a
    · subst hba
      rcases hsettles.once with ⟨-, hnone⟩ | ⟨hnone, -⟩
      · exact hnone
      · exact absurd hnone hb
    · rw [hsettles.history b hba] at hb
      rw [hsettles.cancellations b hba]
      exact h.apart b hb

end Custody

end Pairing
end Nodes
end DarkXray
