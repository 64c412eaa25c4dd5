import DarkXray.Nodes.Credentials

/-!
# Safety of the credential handoff

What the Hub and the Agent hold between them is a small state: the registered token,
the Agent's token, the tokens of each handoff, and the messages.  Its invariant says
that the Agent's token is one that the Hub holds, and that a token that was given up is
never used again.  The calls of the Hub change this state in four ways.

Main results:

- Theorems {lit}`Custody.Inv.begin`, {lit}`Custody.Inv.send`, {lit}`Custody.Inv.serve`
  and {lit}`Custody.Inv.finish`: the four changes keep the invariant.
- Theorem {lit}`safe_script`: the calls of the Hub make no other change.
- Theorem {lit}`credential_rotation_safe`: the Hub is never locked out, a completed
  handoff registers the Agent's token, and delayed rotations have no effect.
-/

namespace DarkXray
namespace Nodes

open Library

/-! ## Custody of the tokens -/

/-- The tokens of a handoff. -/
structure HandoffKeys where
  original : Option String
  candidate : Option String
  originalHash : String
  candidateHash : String
  isOpen : Bool

/-- Who holds which token, and the messages. -/
structure Custody where
  registered : Option String
  agent : String
  handoffs : String → Option HandoffKeys
  requests : List TokenRequest
  replies : List (ℕ × TokenReply)

namespace Custody

variable {fp : String → String} {c c' c'' : Custody} {a o n : String} {k : HandoffKeys}

/-- A token that is registered or may still become so. -/
def Live (c : Custody) (token : String) : Prop :=
  c.registered = some token ∨
    ∃ a k, c.handoffs a = some k ∧ k.isOpen = true ∧ k.candidate = some token

/-- A handoff from {lit}`o` to {lit}`n` that is under way, or after which {lit}`o` will
never be used again. -/
def Fenced (fp : String → String) (c : Custody) (a o n : String) : Prop :=
  ∃ k, c.handoffs a = some k ∧ fp o = k.originalHash ∧ fp n = k.candidateHash ∧
    (k.isOpen = true → k.original = some o ∧ k.candidate = some n) ∧
    (k.isOpen = false → ¬c.Live o)

/-- A request of a handoff: rotations lead from the original token to the candidate. -/
def Proper (fp : String → String) (c : Custody) (q : TokenRequest) : Prop :=
  ∃ o n, Fenced fp c q.attempt o n ∧ (q.auth = o ∨ q.auth = n ∧ q.rotateTo = none) ∧
    ∀ v, q.rotateTo = some v → v = n

/-- The tokens of a handoff under way. -/
structure Between (fp : String → String) (c : Custody) (k : HandoffKeys) (o n : String) :
    Prop where
  original : k.original = some o
  candidate : k.candidate = some n
  registered : c.registered = some o
  distinct : o ≠ n
  originalHash : fp o = k.originalHash
  candidateHash : fp n = k.candidateHash
  agent : c.agent = o ∨ c.agent = n

/-- The invariant of the handoff. -/
structure Inv (fp : String → String) (c : Custody) : Prop where
  registered : ∃ t, c.registered = some t
  idle : (∀ a k, c.handoffs a = some k → k.isOpen = false) → c.registered = some c.agent
  unique : ∀ a k a' k', c.handoffs a = some k → c.handoffs a' = some k' →
    k.isOpen = true → k'.isOpen = true → a = a'
  opened : ∀ a k, c.handoffs a = some k → k.isOpen = true → ∃ o n, Between fp c k o n
  requests : ∀ q ∈ c.requests, Proper fp c q
  /-- A success that was reported to a candidate under way shows that the Agent has it. -/
  replies : ∀ i reply, (i, reply) ∈ c.replies → (∀ status, reply ≠ .failed status) →
    ∃ q, c.requests[i]? = some q ∧ ∀ a k, c.handoffs a = some k → k.isOpen = true →
      k.candidate = some q.auth → c.agent = q.auth

/-- What a thread may rely on: messages are not forgotten, and tokens that were given up
stay so. -/
structure Onward (fp : String → String) (c c' : Custody) : Prop where
  requests : ∀ (i : ℕ) q, c.requests[i]? = some q → c'.requests[i]? = some q
  replies : ∀ x ∈ c.replies, x ∈ c'.replies
  fenced : ∀ a o n, Fenced fp c a o n → Fenced fp c' a o n

/-- A custody that stays is onward. -/
theorem Onward.refl (c : Custody) : Onward fp c c :=
  ⟨fun _ _ => id, fun _ => id, fun _ _ _ => id⟩

/-- Onward changes compose. -/
theorem Onward.trans (h : Onward fp c c') (h' : Onward fp c' c'') : Onward fp c c'' where
  requests i q hq := h'.requests i q (h.requests i q hq)
  replies x hx := h'.replies x (h.replies x hx)
  fenced a o n ha := h'.fenced a o n (h.fenced a o n ha)

/-- One step: when a handoff is completed, the Agent has the registered token. -/
structure Advance (fp : String → String) (c c' : Custody) : Prop where
  onward : Onward fp c c'
  completed : ∀ a k k', c.handoffs a = some k → k.isOpen = true → c'.handoffs a = some k' →
    k'.isOpen = false → c'.registered = some c'.agent

/-- A step after which every handoff that was under way still is. -/
theorem Onward.advance (h : Onward fp c c')
    (hopen : ∀ a k, c.handoffs a = some k → k.isOpen = true → c'.handoffs a = some k) :
    Advance fp c c' := by
  refine ⟨h, fun a k k' hk hk' hnew hclosed => ?_⟩
  obtain rfl : k = k' := Option.some.inj ((hopen a k hk hk').symm.trans hnew)
  rw [hk'] at hclosed
  cases hclosed

/-- A custody that stays advances nothing. -/
theorem Advance.refl (c : Custody) : Advance fp c c :=
  (Onward.refl c).advance fun _ _ hk _ => hk

/-- The tokens of a handoff under way are the ones that its requests have. -/
theorem Fenced.between (h : Inv fp c) (hf : Fenced fp c a o n) (hk : c.handoffs a = some k)
    (hopen : k.isOpen = true) : Between fp c k o n := by
  obtain ⟨k', hk', -, -, htokens, -⟩ := hf
  obtain rfl : k' = k := Option.some.inj (hk'.symm.trans hk)
  obtain ⟨o', n', hb⟩ := h.opened a k' hk hopen
  obtain ⟨ho, hn⟩ := htokens hopen
  obtain rfl : o' = o := Option.some.inj (hb.original.symm.trans ho)
  obtain rfl : n' = n := Option.some.inj (hb.candidate.symm.trans hn)
  exact hb

/-! ### Messages -/

/-- Another request. -/
def send (c : Custody) (q : TokenRequest) : Custody :=
  { c with requests := c.requests ++ [q] }

/-- A proper request keeps the custody. -/
theorem Inv.send {q : TokenRequest} (h : Inv fp c) (hq : Proper fp c q) :
    Inv fp (c.send q) ∧ Advance fp c (c.send q) := by
  have hkept : ∀ (i : ℕ) q', c.requests[i]? = some q' → (c.requests ++ [q])[i]? = some q' := by
    intro i q' hi
    obtain ⟨hlt, -⟩ := List.getElem?_eq_some_iff.mp hi
    rw [List.getElem?_append_left hlt, hi]
  have honward : Onward fp c (c.send q) := ⟨hkept, fun _ => id, fun _ _ _ => id⟩
  refine ⟨⟨h.registered, h.idle, h.unique, ?_, ?_, ?_⟩, honward.advance fun _ _ hk _ => hk⟩
  · intro a k hk hopen
    obtain ⟨o, n, hb⟩ := h.opened a k hk hopen
    exact ⟨o, n, ⟨hb.original, hb.candidate, hb.registered, hb.distinct, hb.originalHash,
      hb.candidateHash, hb.agent⟩⟩
  · intro q' hq'
    rcases List.mem_append.mp hq' with hold | hnew
    · exact h.requests q' hold
    · obtain rfl := List.mem_singleton.mp hnew
      exact hq
  · intro i reply hreply hok
    obtain ⟨q', hq', hagent⟩ := h.replies i reply hreply hok
    exact ⟨q', hkept i q' hq', hagent⟩

/-- The Agent has served a request. -/
def served (c : Custody) (i : ℕ) (result : TokenReply × String) : Custody :=
  { c with
    agent := result.2
    replies := c.replies ++ [(i, result.1)] }

/-- The Agent's token is live. -/
theorem Inv.live (h : Inv fp c) : c.Live c.agent := by
  by_cases hidle : ∀ a k, c.handoffs a = some k → k.isOpen = false
  · exact .inl (h.idle hidle)
  · push Not at hidle
    obtain ⟨a, k, hk, hopen⟩ := hidle
    rw [ne_eq, Bool.not_eq_false] at hopen
    obtain ⟨o, n, hb⟩ := h.opened a k hk hopen
    rcases hb.agent with ho | hn
    · exact .inl (ho ▸ hb.registered)
    · exact .inr ⟨a, k, hk, hopen, hn ▸ hb.candidate⟩

/-- A rotation that has an effect belongs to the handoff under way, and gives the Agent
its candidate. -/
theorem Inv.rotation {q : TokenRequest} {v : String} (h : Inv fp c) (hq : q ∈ c.requests)
    (hauth : q.auth = c.agent) (hv : q.rotateTo = some v) :
    ∃ k o, c.handoffs q.attempt = some k ∧ k.isOpen = true ∧ Between fp c k o v := by
  obtain ⟨o, n, hf, hholder, hvalue⟩ := h.requests q hq
  obtain rfl : v = n := hvalue v hv
  have ho : q.auth = o := by
    rcases hholder with ho | ⟨-, hnone⟩
    · exact ho
    · rw [hv] at hnone
      cases hnone
  obtain ⟨k, hk, -, -, -, hdead⟩ := id hf
  have hopen : k.isOpen = true := by
    by_contra hclosed
    rw [Bool.not_eq_true] at hclosed
    exact hdead hclosed (ho ▸ hauth ▸ h.live)
  exact ⟨k, o, hk, hopen, hf.between h hk hopen⟩

/-- A request that is served keeps the custody. -/
theorem Inv.serve {q : TokenRequest} {i : ℕ} (h : Inv fp c) (hq : c.requests[i]? = some q)
    (service : Service) :
    Inv fp (c.served i (serveToken c.agent q service)) ∧
      Advance fp c (c.served i (serveToken c.agent q service)) := by
  have hmem : q ∈ c.requests := List.mem_of_getElem? hq
  generalize hresult : serveToken c.agent q service = result
  -- the Agent's token stays, or becomes the candidate of the handoff under way
  have htoken : result.2 = c.agent ∨
      ∃ k o, c.handoffs q.attempt = some k ∧ k.isOpen = true ∧ Between fp c k o result.2 := by
    by_cases hsame : result.2 = c.agent
    · exact .inl hsame
    · rw [← hresult] at hsame
      obtain ⟨hauth, hvalue⟩ := serve_token hsame
      rw [hresult] at hvalue
      exact .inr (h.rotation hmem hauth hvalue)
  have hopened : ∀ a k, c.handoffs a = some k → k.isOpen = true →
      ∃ o n, Between fp (c.served i result) k o n := by
    intro a k hk hopen
    obtain ⟨o, n, hb⟩ := h.opened a k hk hopen
    refine ⟨o, n, ⟨hb.original, hb.candidate, hb.registered, hb.distinct, hb.originalHash,
      hb.candidateHash, ?_⟩⟩
    rcases htoken with hsame | ⟨k', o', hk', hopen', hb'⟩
    · have hagent : (c.served i result).agent = c.agent := hsame
      rw [hagent]
      exact hb.agent
    · obtain rfl := h.unique _ _ _ _ hk hk' hopen hopen'
      obtain rfl : k = k' := Option.some.inj (hk.symm.trans hk')
      exact .inr (Option.some.inj (hb'.candidate.symm.trans hb.candidate))
  have honward : Onward fp c (c.served i result) :=
    ⟨fun _ _ => id, fun x hx => List.mem_append_left _ hx, fun _ _ _ => id⟩
  refine ⟨⟨h.registered, ?_, h.unique, hopened, h.requests, ?_⟩,
    honward.advance fun _ _ hk _ => hk⟩
  · intro hidle
    rcases htoken with hsame | ⟨k', o', hk', hopen', -⟩
    · exact (h.idle hidle).trans (congrArg some hsame.symm)
    · rw [hidle _ _ hk'] at hopen'
      cases hopen'
  · intro j reply hreply hok
    have hagent : ∀ q' : TokenRequest, (∀ a k, c.handoffs a = some k → k.isOpen = true →
        k.candidate = some q'.auth → c.agent = q'.auth) → ∀ a k, c.handoffs a = some k →
          k.isOpen = true → k.candidate = some q'.auth → result.2 = q'.auth := by
      intro q' hq' a k hk hopen hcandidate
      rcases htoken with hsame | ⟨k', o', hk', hopen', hb'⟩
      · exact hsame.trans (hq' a k hk hopen hcandidate)
      · obtain rfl := h.unique _ _ _ _ hk hk' hopen hopen'
        obtain rfl : k = k' := Option.some.inj (hk.symm.trans hk')
        exact Option.some.inj (hb'.candidate.symm.trans hcandidate)
    rcases List.mem_append.mp hreply with hold | hnew
    · obtain ⟨q', hq', hheld⟩ := h.replies j reply hold hok
      exact ⟨q', hq', hagent q' hheld⟩
    · rw [List.mem_singleton, Prod.mk.injEq] at hnew
      obtain ⟨rfl, rfl⟩ := hnew
      refine ⟨q, hq, hagent q fun a k hk hopen hcandidate => ?_⟩
      rcases serve_reply c.agent q service with ⟨status, hfailed⟩ | hheld
      · exact absurd (hresult ▸ hfailed) (hok status)
      · exact hheld.1.symm

/-! ### Handoffs -/

/-- A handoff begins. -/
def begun (c : Custody) (a : String) (k : HandoffKeys) : Custody :=
  { c with handoffs := Function.update c.handoffs a (some k) }

/-- A handoff that begins keeps the custody. -/
theorem Inv.begin (h : Inv fp c) (hidle : ∀ a k, c.handoffs a = some k → k.isOpen = false)
    (hnew : c.handoffs a = none) (ho : c.registered = some o) (hdistinct : o ≠ n)
    (hfresh : ∀ a k, c.handoffs a = some k → k.originalHash ≠ fp n ∧ k.candidateHash ≠ fp n) :
    Inv fp (c.begun a ⟨some o, some n, fp o, fp n, true⟩) ∧
      Advance fp c (c.begun a ⟨some o, some n, fp o, fp n, true⟩) := by
  let k : HandoffKeys := ⟨some o, some n, fp o, fp n, true⟩
  have hagent : o = c.agent := Option.some.inj (ho.symm.trans (h.idle hidle))
  have hself : (c.begun a k).handoffs a = some k := Function.update_self ..
  have hother : ∀ a', a' ≠ a → (c.begun a k).handoffs a' = c.handoffs a' :=
    fun a' ha' => Function.update_of_ne ha' _ _
  have hold : ∀ a' k', c.handoffs a' = some k' → (c.begun a k).handoffs a' = some k' := by
    intro a' k' hk'
    rw [hother a' (fun heq => by rw [heq, hnew] at hk'; cases hk'), hk']
  have honly : ∀ a' k', (c.begun a k).handoffs a' = some k' → k'.isOpen = true →
      a' = a ∧ k' = k := by
    intro a' k' hk' hopen
    by_cases ha' : a' = a
    · rw [ha', hself] at hk'
      exact ⟨ha', (Option.some.inj hk').symm⟩
    · rw [hother a' ha'] at hk'
      rw [hidle a' k' hk'] at hopen
      cases hopen
  have hlive : ∀ t, (c.begun a k).Live t → c.Live t ∨ t = n := by
    rintro t (hreg | ⟨a', k', hk', hopen, hcandidate⟩)
    · exact .inl (.inl hreg)
    · obtain ⟨rfl, rfl⟩ := honly a' k' hk' hopen
      exact .inr (Option.some.inj hcandidate).symm
  have hfenced : ∀ a' o' n', Fenced fp c a' o' n' → Fenced fp (c.begun a k) a' o' n' := by
    rintro a' o' n' ⟨k', hk', ho', hn', htokens, hdead⟩
    refine ⟨k', hold a' k' hk', ho', hn', htokens, fun hclosed hl => ?_⟩
    rcases hlive o' hl with hl | rfl
    · exact hdead hclosed hl
    · exact (hfresh a' k' hk').1 ho'.symm
  have honward : Onward fp c (c.begun a k) := ⟨fun _ _ => id, fun _ => id, hfenced⟩
  refine ⟨⟨h.registered, ?_, ?_, ?_, ?_, ?_⟩, honward.advance fun b m hm _ => hold b m hm⟩
  · intro hnone
    cases hnone a k hself
  · intro a₁ k₁ a₂ k₂ hk₁ hk₂ hopen₁ hopen₂
    rw [(honly a₁ k₁ hk₁ hopen₁).1, (honly a₂ k₂ hk₂ hopen₂).1]
  · intro a' k' hk' hopen
    obtain ⟨rfl, rfl⟩ := honly a' k' hk' hopen
    exact ⟨o, n, ⟨rfl, rfl, ho, hdistinct, rfl, rfl, .inl hagent.symm⟩⟩
  · intro q hq
    obtain ⟨o', n', hf, hrest⟩ := h.requests q hq
    exact ⟨o', n', hfenced _ _ _ hf, hrest⟩
  · intro i reply hreply hok
    obtain ⟨q, hq, -⟩ := h.replies i reply hreply hok
    refine ⟨q, hq, fun a' k' hk' hopen hcandidate => ?_⟩
    obtain ⟨rfl, rfl⟩ := honly a' k' hk' hopen
    -- no request was sent with the new candidate
    obtain ⟨o', n', ⟨k', hk', ho', hn', -⟩, hauth, -⟩ := h.requests q (List.mem_of_getElem? hq)
    have heq : n = q.auth := Option.some.inj hcandidate
    obtain ⟨hfresh₁, hfresh₂⟩ := hfresh _ k' hk'
    rcases hauth with hauth | ⟨hauth, -⟩
    · exact absurd (by rw [heq, hauth, ho']) hfresh₁
    · exact absurd (by rw [heq, hauth, hn']) hfresh₂

/-- A handoff is completed. -/
def finished (c : Custody) (a : String) (k : HandoffKeys) (n : String) : Custody :=
  { c with
    registered := some n
    handoffs := Function.update c.handoffs a (some k) }

/-- A handoff that ends keeps the custody. -/
theorem Inv.finish {k' : HandoffKeys} (h : Inv fp c) (hk : c.handoffs a = some k)
    (hopen : k.isOpen = true) (hn : k.candidate = some n) (hagent : c.agent = n)
    (hclosed : k'.isOpen = false) (horiginal : k'.originalHash = k.originalHash)
    (hcandidate : k'.candidateHash = k.candidateHash) :
    Inv fp (c.finished a k' n) ∧ Advance fp c (c.finished a k' n) := by
  have hself : (c.finished a k' n).handoffs a = some k' := Function.update_self ..
  have hother : ∀ b, b ≠ a → (c.finished a k' n).handoffs b = c.handoffs b :=
    fun b hb => Function.update_of_ne hb _ _
  have hnone : ∀ b m, (c.finished a k' n).handoffs b = some m → m.isOpen = false := by
    intro b m hm
    by_cases hb : b = a
    · rw [hb, hself] at hm
      rw [← Option.some.inj hm, hclosed]
    · rw [hother b hb] at hm
      by_contra hmopen
      rw [Bool.not_eq_false] at hmopen
      exact hb (h.unique b m a k hm hk hmopen hopen)
  have hlive : ∀ t, (c.finished a k' n).Live t → t = n := by
    rintro t (hreg | ⟨b, m, hm, hmopen, -⟩)
    · exact (Option.some.inj hreg).symm
    · rw [hnone b m hm] at hmopen
      cases hmopen
  have hfenced : ∀ b o' n', Fenced fp c b o' n' → Fenced fp (c.finished a k' n) b o' n' := by
    intro b o' n' hf
    by_cases hb : b = a
    · subst hb
      have hbetween := hf.between h hk hopen
      refine ⟨k', hself, horiginal ▸ hbetween.originalHash,
        hcandidate ▸ hbetween.candidateHash, fun hopen' => ?_, fun _ hl => ?_⟩
      · rw [hclosed] at hopen'
        cases hopen'
      · have hsame : n' = n := Option.some.inj (hbetween.candidate.symm.trans hn)
        exact hbetween.distinct ((hlive o' hl).trans hsame.symm)
    · obtain ⟨m, hm, ho', hn', htokens, hdead⟩ := hf
      refine ⟨m, (hother b hb).trans hm, ho', hn', htokens, fun hmclosed hl => ?_⟩
      apply hdead hmclosed
      rw [hlive o' hl]
      exact .inr ⟨a, k, hk, hopen, hn⟩
  have honward : Onward fp c (c.finished a k' n) := ⟨fun _ _ => id, fun _ => id, hfenced⟩
  refine ⟨⟨⟨n, rfl⟩, fun _ => congrArg some hagent.symm, ?_, ?_, ?_, ?_⟩, honward,
    fun _ _ _ _ _ _ _ => congrArg some hagent.symm⟩
  · intro b m b' m' hm _ hmopen _
    rw [hnone b m hm] at hmopen
    cases hmopen
  · intro b m hm hmopen
    rw [hnone b m hm] at hmopen
    cases hmopen
  · intro q hq
    obtain ⟨o', n', hf, hrest⟩ := h.requests q hq
    exact ⟨o', n', hfenced _ _ _ hf, hrest⟩
  · intro i reply hreply hok
    obtain ⟨q, hq, -⟩ := h.replies i reply hreply hok
    refine ⟨q, hq, fun b m hm hmopen _ => ?_⟩
    rw [hnone b m hm] at hmopen
    cases hmopen

end Custody

/-! ## The custody of the Hub and the Agent -/

section Scripts

variable (cipher : Cipher)

/-- The tokens of a journal row. -/
def Handoff.keys (r : Handoff) : HandoffKeys where
  original := cipher.decrypt r.originalEnc
  candidate := cipher.decrypt r.candidateEnc
  originalHash := r.originalHash
  candidateHash := r.candidateHash
  isOpen := r.phase ≠ .completed

/-- The custody that the Hub's tables, the Agent and the messages represent. -/
def Site.custody (s : Site) : Custody where
  registered := cipher.decrypt s.tokenEnc
  agent := s.agentToken
  handoffs a := (s.handoffs.get? a).map (Handoff.keys cipher)
  requests := s.requests
  replies := s.replies

/-- The custody keeps its invariant, and all handoffs are of the one binding. -/
structure Site.Inv (s : Site) : Prop where
  custody : (s.custody cipher).Inv cipher.fingerprint
  binding : ∀ a r, s.handoffs.get? a = some r → r.binding.bindingId = s.binding.bindingId

/-- What a thread of the Hub may rely on. -/
def Site.Onward (s t : Site) : Prop :=
  (s.custody cipher).Onward cipher.fingerprint (t.custody cipher)

/-- What every action of the Hub and of the Agent is. -/
def Site.Advance (s t : Site) : Prop :=
  (s.custody cipher).Advance cipher.fingerprint (t.custody cipher)

/-- What the threads of the Hub keep. -/
def handoffDiscipline : Discipline Chance Unit Site where
  inv := Site.Inv cipher
  step := Site.Advance cipher
  rel := Site.Onward cipher
  ok _ _ _ := True
  refl _ := .refl _
  sub _ _ := Custody.Advance.onward
  trans _ _ _ := .trans

/-- The tokens of a row that a thread has read. -/
structure Held (s : Site) (a : String) (row : Handoff) (o n : String) : Prop where
  original : cipher.decrypt row.originalEnc = some o
  candidate : cipher.decrypt row.candidateEnc = some n
  fenced : (s.custody cipher).Fenced cipher.fingerprint a o n

/-- The Agent has reported a success to a token. -/
def Shown (s : Site) (n : String) : Prop :=
  ∃ (i : ℕ) (q : TokenRequest) (reply : TokenReply), s.requests[i]? = some q ∧ q.auth = n ∧
    (i, reply) ∈ s.replies ∧ ∀ status, reply ≠ .failed status

variable {cipher} {s t : Site} {a o n : String} {row : Handoff} {chance : Chance}

/-- A row goes on holding its tokens. -/
theorem Held.later (h : Held cipher s a row o n) (hrel : s.Onward cipher t) :
    Held cipher t a row o n :=
  ⟨h.original, h.candidate, hrel.fenced _ _ _ h.fenced⟩

/-- A token that was shown stays shown. -/
theorem Shown.later (h : Shown s n) (hrel : s.Onward cipher t) : Shown t n := by
  obtain ⟨i, q, reply, hq, hauth, hreply, hok⟩ := h
  exact ⟨i, q, reply, hrel.requests i q hq, hauth, hrel.replies _ hreply, hok⟩

/-- A change of a row that keeps its tokens changes nothing else. -/
theorem custody_updateHandoff {f : Handoff → Handoff}
    (hf : ∀ r, s.handoffs.get? a = some r → (f r).keys cipher = r.keys cipher) :
    (s.updateHandoff a f).custody cipher = s.custody cipher := by
  have hhandoffs : ∀ b, ((s.updateHandoff a f).handoffs.get? b).map (Handoff.keys cipher) =
      (s.handoffs.get? b).map (Handoff.keys cipher) := by
    intro b
    rw [Site.updateHandoff, Table.get?_update]
    by_cases hb : b = a
    · subst hb
      cases hr : s.handoffs.get? b with
      | none => simp
      | some r => simp [hf r hr]
    · simp [hb]
  simp only [Site.custody, hhandoffs]
  rfl

/-- A change that keeps the tokens of a handoff keeps the custody. -/
theorem Site.Inv.updateHandoff {f : Handoff → Handoff} (h : s.Inv cipher)
    (hf : ∀ r, s.handoffs.get? a = some r → (f r).keys cipher = r.keys cipher)
    (hbinding : ∀ r, (f r).binding = r.binding) :
    (s.updateHandoff a f).Inv cipher ∧ s.Advance cipher (s.updateHandoff a f) := by
  refine ⟨⟨?_, ?_⟩, ?_⟩
  · rw [custody_updateHandoff hf]
    exact h.custody
  · intro b r hr
    rw [Site.updateHandoff, Table.get?_update] at hr
    split at hr
    · obtain ⟨old, hold, rfl⟩ := Option.map_eq_some_iff.mp hr
      rw [hbinding]
      exact h.binding _ _ hold
    · exact h.binding b r hr
  · rw [Site.Advance, custody_updateHandoff hf]
    exact .refl _

/-- What {lit}`_assert` finds. -/
structure Asserted (s : Site) (a : String) (row latest : Handoff) : Prop where
  get? : s.handoffs.get? a = some latest
  phase : latest.phase ≠ .completed
  original : latest.originalEnc = row.originalEnc
  candidate : latest.candidateEnc = row.candidateEnc
  tokenEnc : s.tokenEnc = row.originalEnc

/-- A check of a row. -/
theorem wp_assertRow {q : Unit → Site → Prop} {r : HandoffError → Site → Prop}
    (hq : ∀ latest, Asserted s a row latest → q () s) (hr : ∀ e, r e s) :
    (assertRow a row chance).wp q r s := by
  simp only [assertRow, noConflict, Tx.wp_bind, Tx.wp_read, Tx.wp_require, id_eq]
  refine ⟨fun h => ⟨fun _ => ?_, fun _ => hr _⟩, fun _ => hr _⟩
  obtain ⟨hlatest, -, htoken⟩ := h
  cases hget : s.handoffs.get? a with
  | none => simp [hget] at hlatest
  | some latest =>
      simp only [hget, Option.any_some, Bool.and_eq_true, decide_eq_true_eq] at hlatest
      obtain ⟨⟨⟨⟨⟨⟨hphase, -⟩, -⟩, -⟩, horiginal⟩, hcandidate⟩, -⟩ := hlatest
      exact hq latest ⟨hget, by simpa using hphase, horiginal, hcandidate, htoken⟩

/-- A handoff that has been found under way. -/
theorem Asserted.keys (cipher : Cipher) {latest : Handoff} (h : Asserted s a row latest) :
    (s.custody cipher).handoffs a = some (latest.keys cipher) ∧
      (latest.keys cipher).isOpen = true := by
  simp [Site.custody, h.get?, Handoff.keys, h.phase]

/-- An open row is fenced by its own tokens. -/
theorem held_of_open (h : s.Inv cipher) (hget : s.handoffs.get? a = some row)
    (hphase : row.phase ≠ .completed) : ∃ o n, Held cipher s a row o n := by
  have hkeys : (s.custody cipher).handoffs a = some (row.keys cipher) := by
    simp [Site.custody, hget]
  have hopen : (row.keys cipher).isOpen = true := by simp [Handoff.keys, hphase]
  obtain ⟨o, n, hb⟩ := h.custody.opened a _ hkeys hopen
  refine ⟨o, n, hb.original, hb.candidate, _, hkeys, hb.originalHash, hb.candidateHash,
    fun _ => ⟨hb.original, hb.candidate⟩, fun hclosed => ?_⟩
  rw [hopen] at hclosed
  cases hclosed

/-! ## The calls -/

/-- A transaction that raises has changed nothing. -/
theorem Site.Advance.refl (s : Site) : s.Advance cipher s :=
  Custody.Advance.refl _

/-- Beginning a handoff keeps the custody. -/
theorem beginNew_spec {existing : Option (String × Handoff)} {candidate : String}
    (h : s.Inv cipher)
    (hidle : ∀ a r, s.handoffs.get? a = some r → r.phase = .completed) :
    (beginNew cipher existing candidate chance).wp
      (fun _ t => t.Inv cipher ∧ s.Advance cipher t) (fun _ _ => True) s := by
  have hclosed : ∀ a k, (s.custody cipher).handoffs a = some k → k.isOpen = false := by
    intro a k hk
    obtain ⟨r, hr, rfl⟩ := Option.map_eq_some_iff.mp hk
    simp [Handoff.keys, hidle a r hr]
  obtain ⟨current, hcurrent⟩ := h.custody.registered
  have hcurrent' : cipher.decrypt s.tokenEnc = some current := hcurrent
  simp only [beginNew, Cipher.open, Tx.wp_bind, Tx.wp_read, Tx.wp_ofExcept, id_eq, hcurrent',
    Option.elim_some]
  refine ⟨fun x hx => ?_, fun _ _ => trivial⟩
  obtain rfl : current = x := Except.ok.inj hx
  split
  · simp only [Tx.wp_require]
    exact ⟨fun _ => ⟨h, .refl s⟩, fun _ => trivial⟩
  · rename_i hdistinct
    simp only [Tx.wp_bind, Tx.wp_require, Tx.wp_write]
    refine ⟨fun hunused => ⟨fun hnew => ?_, fun _ => trivial⟩, fun _ => trivial⟩
    have hcustody : Site.custody cipher { s with
        handoffs := s.handoffs.insert chance.fresh (newHandoff cipher s candidate current chance) } =
          (s.custody cipher).begun chance.fresh ⟨some current, some candidate,
            cipher.fingerprint current, cipher.fingerprint candidate, true⟩ := by
      simp only [Site.custody, Custody.begun, Custody.mk.injEq, true_and, and_true]
      ext b : 1
      rw [Table.get?_insert hnew, Function.update_apply]
      split
      · simp [Handoff.keys, newHandoff, hcurrent', cipher.decrypt_encrypt]
      · rfl
    have hfresh : ∀ a k, (s.custody cipher).handoffs a = some k →
        k.originalHash ≠ cipher.fingerprint candidate ∧
          k.candidateHash ≠ cipher.fingerprint candidate := by
      intro a k hk
      obtain ⟨r, hr, rfl⟩ := Option.map_eq_some_iff.mp hk
      have hrow := List.all_eq_true.mp hunused _ (Table.get?_eq_some_iff.mp hr)
      simp only [h.binding a r hr, decide_true, Bool.true_and, Bool.not_eq_true',
        Bool.or_eq_false_iff, decide_eq_false_iff_not] at hrow
      exact ⟨hrow.2, hrow.1⟩
    have hnone : (s.custody cipher).handoffs chance.fresh = none := by
      simp [Site.custody, hnew]
    obtain ⟨hinv, hadvance⟩ :=
      h.custody.begin hclosed hnone hcurrent hdistinct hfresh
    rw [← hcustody] at hinv hadvance
    refine ⟨⟨hinv, fun a r hr => ?_⟩, hadvance⟩
    rw [Table.get?_insert hnew] at hr
    split at hr
    · rw [← Option.some.inj hr]
      rfl
    · exact h.binding a r hr

/-- A last row that is completed, or none: no handoff is under way. -/
theorem idle_of_latest (h : ∀ a r, s.latest = some (a, r) → r.phase = .completed) :
    ∀ a r, s.handoffs.get? a = some r → r.phase = .completed := by
  intro a r hr
  have hmem := Table.get?_eq_some_iff.mp hr
  cases hlatest : s.latest with
  | none =>
      have hrows : s.handoffs.rows = [] := latestOf_eq_none hlatest
      rw [hrows] at hmem
      cases hmem
  | some last => exact latestOf_completed hlatest (h last.1 last.2 hlatest) _ hmem

/-- The transaction that begins a handoff keeps the custody. -/
theorem beginTx_spec {candidate bindingId : String} (h : s.Inv cipher) :
    (beginTx cipher candidate bindingId chance).wp
      (fun _ t => t.Inv cipher ∧ s.Advance cipher t) (fun _ t => t = s) s := by
  simp only [beginTx, noConflict, Tx.wp_transaction, Tx.wp_bind, Tx.wp_read, Tx.wp_require, id_eq]
  refine ⟨fun _ => ⟨fun _ => ?_, fun _ => trivial⟩, fun _ => trivial⟩
  split
  · rename_i a r hlatest
    split
    · simp only [beginAgain, Tx.wp_bind, Tx.wp_require, Tx.wp_ofExcept]
      exact ⟨fun _ => ⟨fun _ _ => ⟨fun _ => ⟨h, .refl s⟩, fun _ => trivial⟩, fun _ _ => trivial⟩,
        fun _ => trivial⟩
    · rename_i hphase
      rw [ne_eq, not_not] at hphase
      apply beginNew_spec h (idle_of_latest _)
      intro a' r' hr'
      rw [hlatest, Option.some.injEq, Prod.mk.injEq] at hr'
      rw [← hr'.2, hphase]
  · rename_i hlatest
    apply beginNew_spec h (idle_of_latest _)
    intro a' r' hr'
    rw [hlatest] at hr'
    cases hr'

/-- The first transaction of {lit}`retry` reads the tokens of an open row. -/
theorem retryTx_spec (h : s.Inv cipher) :
    (retryTx a chance).wp
      (fun row? t => (t.Inv cipher ∧ s.Advance cipher t) ∧
        ∀ row, row? = some row → ∃ o n, Held cipher t a row o n)
      (fun _ t => t = s) s := by
  simp only [retryTx, Tx.wp_transaction, Tx.wp_bind, Tx.wp_read, Tx.wp_demand]
  refine ⟨fun row hrow => ?_, fun _ => trivial⟩
  split
  · refine ⟨⟨h, .refl s⟩, fun _ hnone => ?_⟩
    cases hnone
  · rename_i hphase
    simp only [Tx.wp_bind, Tx.wp_require]
    refine ⟨fun _ => ?_, fun _ => trivial⟩
    apply wp_assertRow
    · intro _ _
      obtain ⟨hinv, hadvance⟩ := h.updateHandoff (a := a)
        (f := fun r => { r with operationRevision := row.operationRevision + 1 })
        (fun _ _ => rfl) fun _ => rfl
      obtain ⟨o, n, hheld⟩ := held_of_open h hrow hphase
      refine ⟨⟨hinv, hadvance⟩, fun row' hrow' => ⟨o, n, ?_⟩⟩
      rw [← Option.some.inj hrow']
      exact ⟨hheld.original, hheld.candidate, hadvance.onward.fenced _ _ _ hheld.fenced⟩
    · exact fun _ => trivial

/-- The transaction before a rotation keeps the custody. -/
theorem rotatingTx_spec (h : s.Inv cipher) :
    (rotatingTx a row chance).wp (fun _ t => t.Inv cipher ∧ s.Advance cipher t)
      (fun _ t => t = s) s := by
  simp only [rotatingTx, Tx.wp_transaction, Tx.wp_bind]
  apply wp_assertRow
  · intro latest hlatest
    apply h.updateHandoff
    · intro r hr
      rw [hlatest.get?] at hr
      simp [Handoff.keys, ← Option.some.inj hr, hlatest.phase]
    · exact fun _ => rfl
  · exact fun _ => trivial

/-- Noting an error keeps the custody. -/
theorem noteError_spec (h : s.Inv cipher) (e : HandoffError) :
    (noteError a row e chance).wp (fun _ t => t.Inv cipher ∧ s.Advance cipher t)
      (fun _ t => t = s) s := by
  simp only [noteError, Tx.wp_transaction, Tx.wp_write]
  apply h.updateHandoff
  · intro r _
    split <;> rfl
  · intro r
    split <;> rfl

/-- Completing a handoff whose candidate the Agent has accepted. -/
theorem finishTx_spec (h : s.Inv cipher) (hheld : Held cipher s a row o n) (hshown : Shown s n) :
    (finishTx cipher a row chance).wp (fun _ t => t.Inv cipher ∧ s.Advance cipher t)
      (fun _ t => t = s) s := by
  simp only [finishTx, Tx.wp_transaction, Tx.wp_bind]
  apply wp_assertRow
  · intro latest hlatest
    simp only [Tx.wp_write, Tx.wp_read, Tx.wp_require, id_eq]
    refine ⟨fun _ => ⟨fun _ => ?_, fun _ => trivial⟩, fun _ => trivial⟩
    obtain ⟨hkeys, hopen⟩ := hlatest.keys cipher
    have hcandidate : (latest.keys cipher).candidate = some n := by
      simp [Handoff.keys, hlatest.candidate, hheld.candidate]
    obtain ⟨i, q, reply, hq, hauth, hreply, hok⟩ := hshown
    obtain ⟨q', hq', hagent⟩ := h.custody.replies i reply hreply hok
    obtain rfl : q = q' := Option.some.inj (hq.symm.trans hq')
    have hagent' : s.agentToken = n :=
      (hagent a _ hkeys hopen (hauth ▸ hcandidate)).trans hauth
    let done := latest.complete cipher row chance.now
    have hcustody : Site.custody cipher { s.updateHandoff a fun r =>
        r.complete cipher row chance.now with tokenEnc := row.candidateEnc } =
          (s.custody cipher).finished a (done.keys cipher) n := by
      simp only [Site.custody, Custody.finished, Custody.mk.injEq, hheld.candidate, true_and]
      refine ⟨rfl, ?_, rfl, rfl⟩
      ext b : 1
      rw [Site.updateHandoff, Table.get?_update, Function.update_apply]
      by_cases hb : b = a
      · simp [hb, hlatest.get?, done]
      · simp [hb]
    have hclosed : (done.keys cipher).isOpen = false := by
      simp [done, Handoff.keys, Handoff.complete]
    obtain ⟨hinv, hadvance⟩ :=
      h.custody.finish hkeys hopen hcandidate hagent' hclosed rfl rfl
    rw [← hcustody] at hinv hadvance
    refine ⟨⟨hinv, fun b r hr => ?_⟩, hadvance⟩
    rw [Site.updateHandoff, Table.get?_update] at hr
    split at hr
    · obtain ⟨old, hold, rfl⟩ := Option.map_eq_some_iff.mp hr
      exact h.binding _ old hold
    · exact h.binding b r hr
  · exact fun _ => trivial

/-- Sending a proper request keeps the custody. -/
theorem sendRequest_spec {q : TokenRequest} (h : s.Inv cipher)
    (hq : (s.custody cipher).Proper cipher.fingerprint q) :
    (sendRequest q chance).wp
      (fun i t => (t.Inv cipher ∧ s.Advance cipher t) ∧ t.requests[i]? = some q)
      (fun _ t => t = s) s := by
  simp only [sendRequest, Tx.wp_bind, Tx.wp_write, Tx.wp_read]
  obtain ⟨hinv, hadvance⟩ := h.custody.send hq
  exact ⟨⟨⟨hinv, h.binding⟩, hadvance⟩, by simp⟩

/-- An answer that is awaited has been given. -/
theorem awaitReply_spec {i : ℕ} :
    (awaitReply i chance).wp
      (fun reply t => t = s ∧ (i, reply) ∈ s.replies ∧ ∀ status, reply ≠ .failed status)
      (fun _ t => t = s) s := by
  simp only [awaitReply, Tx.wp_bind, Tx.wp_read]
  split
  · rename_i j reply hdelivered
    obtain ⟨m, -, hm⟩ := Option.bind_eq_some_iff.mp hdelivered
    have hmem := List.mem_of_getElem? hm
    split
    · rename_i hj
      rw [hj] at hmem
      cases reply with
      | failed status => trivial
      | health health =>
          refine ⟨rfl, hmem, fun status heq => ?_⟩
          cases heq
      | rotated =>
          refine ⟨rfl, hmem, fun status heq => ?_⟩
          cases heq
    · trivial
  · trivial

variable (cipher) in
/-- The scripts of the Hub that keep the discipline, with what they return. -/
abbrev HubSafe {β : Type} (p : HubScript β) (q : β → Site → Prop) (s : Site) : Prop :=
  p.Safe (handoffDiscipline cipher) q (fun _ _ => True) s

/-- An action that keeps the invariant, or raises and changes nothing. -/
theorem safe_perform {β : Type} {action : Chance → Tx Site HandoffError β}
    {q : β → Site → Prop}
    (h : ∀ t chance, t.Inv cipher → s.Onward cipher t → (action chance).wp
      (fun x u => (u.Inv cipher ∧ t.Advance cipher u) ∧ ∀ v, u.Onward cipher v → q x v)
      (fun _ u => u = t) t) :
    HubSafe cipher (Script.perform () action) q s := by
  apply Script.Safe.perform
  intro t ht hlater chance _
  apply Tx.wp_mono (h t chance ht hlater)
  · exact fun x u hu => ⟨hu.1.1, hu.1.2, fun v _ hv => hu.2 v hv⟩
  · rintro _ u rfl
    exact ⟨ht, .refl u, fun _ _ _ => trivial⟩

theorem safe_assert : HubSafe cipher (Script.perform () (assertRow a row)) (fun _ _ => True) s := by
  apply safe_perform
  intro t chance ht _
  apply wp_assertRow
  · exact fun _ _ => ⟨⟨ht, .refl t⟩, fun _ _ => trivial⟩
  · exact fun _ => rfl

/-- An exchange that returns has shown a success to its credential. -/
theorem safe_exchange {credential : String} {rotateTo : Option String} (hs : s.Inv cipher)
    (hheld : Held cipher s a row o n) (hholder : credential = o ∨ credential = n ∧ rotateTo = none)
    (hvalue : ∀ v, rotateTo = some v → v = n) :
    HubSafe cipher (exchange a row credential rotateTo) (fun _ t => Shown t credential) s := by
  apply Script.Safe.bind safe_assert hs
  intro _ t ht hst _
  apply Script.Safe.bind (q := fun (i : ℕ) t => t.requests[i]? = some ⟨a, credential, rotateTo⟩)
    _ ht
  · intro i u hu hsu hi
    apply Script.Safe.bind (q := fun _ t => Shown t credential) _ hu
    · intro reply v hv _ hshown
      apply Script.Safe.bind safe_assert hv
      intro _ w _ hw _
      exact Script.Safe.pure fun x _ hx => (hshown.later hw).later hx
    · apply safe_perform
      intro v chance hv huv
      apply Tx.wp_mono awaitReply_spec
      · rintro reply w ⟨rfl, hreply, hok⟩
        have hshown : Shown w credential := ⟨i, _, reply, huv.requests i _ hi, rfl, hreply, hok⟩
        exact ⟨⟨hv, .refl w⟩, fun _ hx => hshown.later hx⟩
      · exact fun _ _ h => h
  · apply safe_perform
    intro u chance hu htu
    have hproper : (u.custody cipher).Proper cipher.fingerprint ⟨a, credential, rotateTo⟩ :=
      ⟨o, n, ((hheld.later hst).later htu).fenced, hholder, hvalue⟩
    apply Tx.wp_mono (sendRequest_spec hu hproper)
    · exact fun i v hv => ⟨hv.1, fun x hx => hx.requests i _ hv.2⟩
    · exact fun _ _ h => h

theorem safe_probe {credential : String} {forMutation : Bool} (hs : s.Inv cipher)
    (hheld : Held cipher s a row o n) (hholder : credential = o ∨ credential = n) :
    HubSafe cipher (probe a row credential forMutation) (fun _ t => Shown t credential) s := by
  have hexchange : HubSafe cipher (exchange a row credential none)
      (fun _ t => Shown t credential) s :=
    safe_exchange hs hheld (hholder.imp_right fun hn => ⟨hn, rfl⟩) nofun
  apply Script.Safe.bind hexchange hs
  intro reply t _ _ hshown
  apply Script.Safe.ofExcept
  · exact fun _ _ u _ hu => hshown.later hu
  · exact fun _ _ _ _ _ => trivial

/-- The rotation ends when the Agent has shown a success to the candidate. -/
theorem safe_rotate (hs : s.Inv cipher) (hheld : Held cipher s a row o n) :
    HubSafe cipher (rotate cipher a row n) (fun _ t => Shown t n) s := by
  have hopen : cipher.open row.originalEnc = .ok o := by simp [Cipher.open, hheld.original]
  have hoffer : ∀ v, some n = some v → v = n := fun v hv => (Option.some.inj hv).symm
  rw [rotate, hopen]
  apply Script.Safe.bind (q := fun x _ => x = o) _ hs
  · rintro _ t ht hst rfl
    have hheld₁ := hheld.later hst
    apply Script.Safe.bind (safe_probe ht hheld₁ (.inl rfl)) ht
    intro _ u hu htu _
    have hheld₂ := hheld₁.later htu
    apply Script.Safe.bind (q := fun _ _ => True) _ hu
    · intro _ v hv huv _
      have hheld₃ := hheld₂.later huv
      apply Script.Safe.bind (safe_exchange hv hheld₃ (.inl rfl) hoffer) hv
      intro ack w hw hvw _
      have hheld₄ := hheld₃.later hvw
      apply Script.Safe.bind (q := fun _ _ => True) _ hw
      · exact fun _ x hx hwx _ => safe_probe hx (hheld₄.later hwx) (.inr rfl)
      · exact Script.Safe.ofExcept (fun _ _ _ _ _ => trivial) fun _ _ _ _ _ => trivial
    · apply safe_perform
      intro v chance hv _
      apply Tx.wp_mono (rotatingTx_spec hv)
      · exact fun _ _ h => ⟨h, fun _ _ => trivial⟩
      · exact fun _ _ h => h
  · exact Script.Safe.ofExcept (fun _ hx _ _ _ => (Except.ok.inj hx).symm) nofun

theorem safe_verify (hs : s.Inv cipher) (hheld : Held cipher s a row o n) :
    HubSafe cipher (verify cipher a row) (fun _ _ => True) s := by
  have hopen : cipher.open row.candidateEnc = .ok n := by simp [Cipher.open, hheld.candidate]
  rw [verify, hopen]
  apply Script.Safe.bind (q := fun x _ => x = n) _ hs
  · rintro n t ht hst rfl
    have hheld₁ := hheld.later hst
    apply Script.Safe.bind (q := fun _ u => Shown u n) _ ht
    · intro _ u hu htu hshown
      apply safe_perform
      intro v chance hv huv
      apply Tx.wp_mono (finishTx_spec hv ((hheld₁.later htu).later huv) (hshown.later huv))
      · exact fun _ _ h => ⟨h, fun _ _ => trivial⟩
      · exact fun _ _ h => h
    · apply Script.Safe.handle (safe_probe ht hheld₁ (.inr rfl)) ht
      intro e u hu htu _
      split
      · exact safe_rotate hu (hheld₁.later htu)
      · exact Script.Safe.raise fun _ _ _ => trivial
  · exact Script.Safe.ofExcept (fun _ hx _ _ _ => (Except.ok.inj hx).symm) nofun

/-- The calls of the Hub keep the discipline. -/
theorem safe_script (call : HandoffCall) (hs : s.Inv cipher) :
    HubSafe cipher (call.script cipher) (fun _ _ => True) s := by
  cases call with
  | begin candidate bindingId =>
      rw [HandoffCall.script, Nodes.begin]
      split
      · apply safe_perform
        intro t chance ht _
        apply Tx.wp_mono (beginTx_spec ht)
        · exact fun _ _ h => ⟨h, fun _ _ => trivial⟩
        · exact fun _ _ h => h
      · exact Script.Safe.raise fun _ _ _ => trivial
  | retry attempt =>
      rw [HandoffCall.script, Nodes.retry]
      apply Script.Safe.bind
        (q := fun row? t => ∀ row, row? = some row → ∃ o n, Held cipher t attempt row o n) _ hs
      · intro row? t ht _ hrow
        cases row? with
        | none => exact Script.Safe.pure fun _ _ _ => trivial
        | some row =>
            obtain ⟨o, n, hheld⟩ := hrow row rfl
            apply Script.Safe.handle (safe_verify ht hheld) ht
            intro e u hu _ _
            apply safe_perform
            intro v chance hv _
            apply Tx.wp_mono (noteError_spec hv e)
            · exact fun _ _ h => ⟨h, fun _ _ => trivial⟩
            · exact fun _ _ h => h
      · apply safe_perform
        intro t chance ht _
        apply Tx.wp_mono (retryTx_spec ht)
        · intro row? u hu
          refine ⟨hu.1, fun v huv row hrow => ?_⟩
          obtain ⟨o, n, hheld⟩ := hu.2 row hrow
          exact ⟨o, n, hheld.later huv⟩
        · exact fun _ _ h => h

/-- The Agent keeps the discipline, too. -/
theorem safe_serve (e : Serving) (hs : s.Inv cipher) :
    (s.serve e).Inv cipher ∧ s.Advance cipher (s.serve e) := by
  rw [Site.serve]
  split
  · exact ⟨hs, .refl s⟩
  · rename_i q hq
    obtain ⟨hinv, hadvance⟩ := hs.custody.serve hq e.service
    exact ⟨⟨hinv, hs.binding⟩, hadvance⟩

end Scripts

/-! ## Runs -/

/-- The Hub with its calls under way, the Agent and the messages. -/
abbrev HandoffSystem : Type 1 :=
  Pool HandoffCall Chance Unit Site HandoffError Unit

namespace HandoffSystem

variable {cipher : Cipher} {w w' : HandoffSystem}

/-- A Node that has been pinned, with its registered token. -/
def start (binding : Installation) (tokenEnc token : String) : HandoffSystem :=
  Pool.start
    { binding := binding
      tokenEnc := tokenEnc
      handoffs := .empty
      agentToken := token
      requests := []
      replies := [] }

/-- Calls begin and go on, the Hub crashes, the Agent serves requests. -/
def Step (cipher : Cipher) (w : HandoffSystem) (e : PoolEvent HandoffCall Chance Serving)
    (w' : HandoffSystem) : Prop :=
  Pool.Step (HandoffCall.script cipher) Site.serve w e w'

/-- The Hub holds a token as the registered one, or in a handoff under way. -/
def Holds (cipher : Cipher) (w : HandoffSystem) (token : String) : Prop :=
  cipher.decrypt w.store.tokenEnc = some token ∨
    ∃ a r, w.store.handoffs.get? a = some r ∧ r.phase ≠ .completed ∧
      (cipher.decrypt r.originalEnc = some token ∨ cipher.decrypt r.candidateEnc = some token)

/-- The threads of the Hub keep the discipline. -/
def Safe (cipher : Cipher) (w : HandoffSystem) : Prop :=
  Pool.Safe (handoffDiscipline cipher) (fun _ _ _ => True) (fun _ _ _ => True) w

theorem safe_start {binding : Installation} {tokenEnc token : String}
    (h : cipher.decrypt tokenEnc = some token) : (start binding tokenEnc token).Safe cipher := by
  apply Pool.safe_start
  refine ⟨⟨⟨token, h⟩, fun _ => h, ?_, ?_, ?_, ?_⟩, ?_⟩
  · exact fun _ _ _ _ hk => nomatch hk
  · exact fun _ _ hk => nomatch hk
  · exact fun _ hq => (List.not_mem_nil hq).elim
  · exact fun _ _ hreply => (List.not_mem_nil hreply).elim
  · exact fun _ _ hr => nomatch hr

/-- What one event does to the Hub and the Agent. -/
theorem Safe.step {e : PoolEvent HandoffCall Chance Serving} (h : w.Safe cipher)
    (hstep : Step cipher w e w') : w'.Safe cipher ∧ w.store.Advance cipher w'.store := by
  apply Pool.Safe.next h (fun k s hs => safe_script k hs) (fun e s hs => safe_serve e hs) hstep
  cases e with
  | run i o => exact fun _ _ _ _ _ _ => trivial
  | enter k | answer i | crash | outside e => trivial

/-- The Agent's token is one that the Hub holds. -/
theorem Safe.holds (h : w.Safe cipher) : w.Holds cipher w.store.agentToken := by
  rcases h.inv.custody.live with hreg | ⟨a, k, hk, hopen, hcandidate⟩
  · exact .inl hreg
  · obtain ⟨r, hr, rfl⟩ := Option.map_eq_some_iff.mp hk
    exact .inr ⟨a, r, hr, by simpa [Handoff.keys] using hopen, .inr hcandidate⟩

/-- A rotation of a completed handoff has no effect any more. -/
theorem Safe.inert (h : w.Safe cipher) {q : TokenRequest} (hq : q ∈ w.store.requests)
    {v : String} (hv : q.rotateTo = some v) {r : Handoff}
    (hr : w.store.handoffs.get? q.attempt = some r) (hphase : r.phase = .completed)
    (service : Service) :
    (serveToken w.store.agentToken q service).2 = w.store.agentToken := by
  by_contra hchanged
  obtain ⟨hauth, -⟩ := serve_token hchanged
  obtain ⟨k, o, hk, hopen, -⟩ := h.inv.custody.rotation hq hauth hv
  obtain ⟨r', hr', rfl⟩ := Option.map_eq_some_iff.mp hk
  obtain rfl : r = r' := Option.some.inj (hr.symm.trans hr')
  simp [Handoff.keys, hphase] at hopen

end HandoffSystem

/-- Over every interleaving of the calls with lost, late, repeated and reordered
exchanges and with crashes: the Agent's token is registered or held by a handoff under
way; without one under way it is the registered one, and so it is when a handoff is
completed; and the rotations of a completed handoff never have an effect again. -/
theorem credential_rotation_safe {cipher : Cipher} {binding : Installation}
    {tokenEnc token : String} {es : List (PoolEvent HandoffCall Chance Serving)} {w : HandoffSystem}
    (htoken : cipher.decrypt tokenEnc = some token)
    (hrun : Run (HandoffSystem.Step cipher) (HandoffSystem.start binding tokenEnc token) es w) :
    w.Holds cipher w.store.agentToken ∧
      ((∀ a r, w.store.handoffs.get? a = some r → r.phase = .completed) →
        cipher.decrypt w.store.tokenEnc = some w.store.agentToken) ∧
      (∀ e w' a r r', HandoffSystem.Step cipher w e w' →
        w.store.handoffs.get? a = some r → r.phase ≠ .completed →
        w'.store.handoffs.get? a = some r' → r'.phase = .completed →
        cipher.decrypt w'.store.tokenEnc = some w'.store.agentToken) ∧
      ∀ q ∈ w.store.requests, ∀ v r service, q.rotateTo = some v →
        w.store.handoffs.get? q.attempt = some r → r.phase = .completed →
        (serveToken w.store.agentToken q service).2 = w.store.agentToken := by
  have hsafe : w.Safe cipher := hrun.invariant (HandoffSystem.safe_start htoken)
    fun _ _ _ h hstep => (h.step hstep).1
  refine ⟨hsafe.holds, fun hidle => ?_, ?_, ?_⟩
  · apply hsafe.inv.custody.idle
    intro a k hk
    obtain ⟨r, hr, rfl⟩ := Option.map_eq_some_iff.mp hk
    simp [Handoff.keys, hidle a r hr]
  · intro e w' a r r' hstep hr hopen hr' hclosed
    apply (hsafe.step hstep).2.completed a (r.keys cipher) (r'.keys cipher)
    · simp [Site.custody, hr]
    · simp [Handoff.keys, hopen]
    · simp [Site.custody, hr']
    · simp [Handoff.keys, hclosed]
  · exact fun q hq v r service hv hr hphase => hsafe.inert hq hv hr hphase service

/-! ### A lost reply -/

/-- A cipher that hides nothing. -/
def plainCipher : Cipher where
  encrypt _ text := text
  decrypt text := some text
  fingerprint text := text
  decrypt_encrypt _ _ := rfl

/-- The token before the handoff, and the one after it. -/
def firstToken : String := "dkn_" ++ String.ofList (List.replicate 36 'a')
def secondToken : String := "dkn_" ++ String.ofList (List.replicate 36 'b')

/-- The reply to the rotation is lost and the Hub crashes; after it has restarted it
probes the new token and completes the handoff. -/
def lostReply : List (PoolEvent HandoffCall Chance Serving) :=
  let input (delivered : Option ℕ) : Chance := ⟨1, "attempt", 0, false, delivered⟩
  let act : PoolEvent HandoffCall Chance Serving := .run 0 (input none)
  let get (reply : ℕ) : PoolEvent HandoffCall Chance Serving := .run 0 (input (some reply))
  let serve (request : ℕ) : PoolEvent HandoffCall Chance Serving :=
    .outside ⟨request, .carried ⟨"agent", "installation", some 1, true⟩ true⟩
  [.enter (.begin secondToken "binding"), act, .answer 0,
    .enter (.retry "attempt"), act, act, act, serve 0, get 0, act, act, serve 1, get 1, act,
    act, act, act, serve 2, .crash,
    .enter (.retry "attempt"), act, act, act, serve 3, get 3, act, act, .answer 0, serve 2]

theorem credential_rotation_safe_lost : ∃ w : HandoffSystem,
    w.store.agentToken = secondToken ∧ w.Holds plainCipher secondToken ∧
      w.store.handoffs.rows.map (·.2.phase) = [.completed] := by
  have heval : (lostReply.foldlM (Pool.next (HandoffCall.script plainCipher) Site.serve)
      (HandoffSystem.start ⟨"binding", "agent", "installation", "origin"⟩ firstToken firstToken)).map
        (fun w => (w.store.agentToken, w.store.handoffs.rows.map (·.2.phase))) =
          some (secondToken, [.completed]) := by
    decide +kernel
  rcases Option.map_eq_some_iff.mp heval with ⟨w, hrun, hobserved⟩
  rw [Prod.mk.injEq] at hobserved
  have hholds := (credential_rotation_safe rfl (Run.of_eval hrun)).1
  exact ⟨w, hobserved.1, hobserved.1 ▸ hholds, hobserved.2⟩

end Nodes
end DarkXray
