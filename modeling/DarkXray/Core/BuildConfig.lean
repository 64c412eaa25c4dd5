import DarkXray.Core.Sections

/-!
# The listeners of the generated configuration

The part of {lit}`CoreEngine.build_config` that turns the rows of the inbounds into
listeners: every enabled row that is deployed locally has a primary listener, and a second
one on its local tunnel port.

Main results:

- Theorem {lit}`tunnelTag_inj`: the tags of tunnel listeners of different rows differ.
- Theorem {lit}`rowListeners_ok`: what the listeners of one row are.
-/

namespace DarkXray
namespace Core

open Library

/-! ## Tunnel tags -/

/-- {lit}`tunnel_tag`. -/
def tunnelTag (id : ℕ) (port : Port) : String :=
  "dark-tunnel-" ++ toString id ++ "-" ++ toString port.number

theorem dash_notMem_digits (n : ℕ) : '-' ∉ Nat.toDigits 10 n := by
  intro h
  have hdigit : '-'.isDigit = true := Nat.isDigit_of_mem_toDigits (by decide) (by decide) h
  cases hdigit

theorem toList_tunnelTag (id : ℕ) (port : Port) :
    (tunnelTag id port).toList = "dark-tunnel-".toList ++
      (Nat.toDigits 10 id ++ '-' :: Nat.toDigits 10 port.number) := by
  simp [tunnelTag]

/-- Tunnel listeners of different rows have different tags. -/
theorem tunnelTag_inj {i j : ℕ} {p q : Port} (h : tunnelTag i p = tunnelTag j q) : i = j := by
  have hlist := congrArg String.toList h
  rw [toList_tunnelTag, toList_tunnelTag] at hlist
  have hrest := List.append_cancel_left hlist
  have hdigits := (List.append_cons_inj_of_notMem (dash_notMem_digits i)
    (dash_notMem_digits p.number)).mp hrest
  calc i = Nat.ofDigitChars 10 (Nat.toDigits 10 i) 0 := Nat.ofDigitChars_ten_toDigits.symm
    _ = Nat.ofDigitChars 10 (Nat.toDigits 10 j) 0 := by rw [hdigits.1]
    _ = j := Nat.ofDigitChars_ten_toDigits

/-! ## Users -/

/-- {lit}`c[key]`. -/
def required (c : Doc) (key : String) : Except Fault Doc :=
  (c.get? key).elim (.error (.raised "KeyError")) .ok

/-- The protocol of an inbound takes users as {lit}`accounts`. -/
def Protocol.accounts : Protocol → Bool
  | socks => true
  | http => true
  | _ => false

/-- The inbound passes the flow of a client on. -/
def passesFlow (r : Inbound) : Bool :=
  textAt r.streamSettings "network" "tcp" ∈ ["tcp", "raw"].map some &&
    textAt r.streamSettings "security" "none" ∈ ["tls", "reality"].map some

/-- The method of a shadowsocks user; classic methods are named for each user. -/
def userMethod (settings : Doc) : Except Fault (List (String × Doc)) :=
  match settings.getD "method" (.str "") with
  | .atom (.str s) =>
      if "2022-".toList.isPrefixOf s.toList then .ok []
      else .ok [("method", settings.getD "method" (.str "aes-128-gcm"))]
  | _ => .error (.raised "AttributeError")

/-- The user of a client on an inbound. -/
def userOf (r : Inbound) (c : Doc) : Except Fault (Option Doc) := do
  let email ← required c "email"
  let p := [("email", email), ("level", Doc.int 0)]
  match r.protocol with
  | .vless => do
      let id ← required c "id"
      let flow := if c.truthyAt "flow" && passesFlow r then [("flow", c.getD "flow" (.str ""))] else []
      pure (some (.dict (p ++ [("id", id)] ++ flow)))
  | .vmess => do
      let id ← required c "id"
      pure (some (.dict (p ++ [("id", id)])))
  | .trojan => do
      let password ← required c "password"
      pure (some (.dict (p ++ [("password", password)])))
  | .shadowsocks => do
      let password ← required c "password"
      let method ← userMethod r.settings
      pure (some (.dict (p ++ [("password", password)] ++ method)))
  | .socks | .http => do
      let password ← required c "password"
      pure (some (.dict [("user", email), ("pass", password)]))
  | .dokodemoDoor | .tunnel => pure none

/-- The client is attached to an inbound and enabled. -/
def CoreClient.serves (c : CoreClient) (id : ℕ) : Bool :=
  id ∈ c.inboundIds && (c.body.getD "enable" (.bool true)).truthy

/-- The users of an inbound. -/
def usersOf (clients : List CoreClient) (id : ℕ) (r : Inbound) : Except Fault (List Doc) := do
  let users ← (clients.filter (·.serves id)).mapM fun c => userOf r c.body
  pure (users.filterMap fun user => user)

/-! ## Listeners -/

/-- An entry of {lit}`inbounds` of the generated configuration. -/
structure Listener where
  tag : String
  listen : Atom
  port : Port
  protocol : Protocol
  settings : Doc
  streamSettings : Doc
  sniffing : Doc

/-- The settings of an inbound with its users. -/
def listenerSettings (r : Inbound) (users : List Doc) : Doc :=
  match r.protocol with
  | .vless | .vmess | .trojan | .shadowsocks => r.settings.set "clients" (.list users)
  | .socks => (r.settings.set "accounts" (.list users)).set "auth" (.str "password")
  | .http => r.settings.set "accounts" (.list users)
  | .dokodemoDoor | .tunnel => r.settings

/-- The primary listener of a row. -/
def primaryListener (r : Inbound) (users : List Doc) : Listener where
  tag := r.tag
  listen := r.listen
  port := r.port
  protocol := r.protocol
  settings := listenerSettings r users
  streamSettings := r.streamSettings
  sniffing := r.sniffing

/-- The tunnel listener of a row. -/
def shadowListener (id : ℕ) (primary : Listener) (port : Port) : Listener :=
  { primary with tag := tunnelTag id port, port }

/-- The row is enabled and deployed locally. -/
def Inbound.deployed (r : Inbound) : Bool :=
  r.enable && deployLocal r.panelMeta

/-- The listeners of one row: none, or a primary one and perhaps one on the tunnel port. -/
def rowListeners (clients : List CoreClient) (id : ℕ) (r : Inbound) :
    Except Fault (Option (Listener × Option Listener)) :=
  if !r.deployed then .ok none
  else do
    let users ← usersOf clients id r
    if r.protocol.accounts && users.isEmpty then pure none
    else
      let primary := primaryListener r users
      pure (some (primary, (localPort r.panelMeta).map (shadowListener id primary)))

/-- The listeners of all rows. -/
def buildInbounds (s : CoreStore) : Except Fault (List (Listener × Option Listener)) := do
  let parts ← s.inbounds.rows.mapM fun row => rowListeners s.clients row.1 row.2
  pure (parts.filterMap fun part => part)

/-- {lit}`inbounds` of the generated configuration. -/
def listeners (parts : List (Listener × Option Listener)) : List Listener :=
  parts.flatMap fun part => part.1 :: part.2.toList

/-! ## What a row contributes -/

/-- The listeners of a row that is deployed: a primary one, and one on the tunnel port. -/
theorem rowListeners_ok {clients : List CoreClient} {id : ℕ} {r : Inbound}
    {part : Option (Listener × Option Listener)} (h : rowListeners clients id r = .ok part) :
    part = none ∨ r.deployed = true ∧ ∃ users, part = some (primaryListener r users,
      (localPort r.panelMeta).map (shadowListener id (primaryListener r users))) := by
  unfold rowListeners at h
  by_cases hdeployed : r.deployed = true
  · simp only [hdeployed, Bool.not_true, Bool.false_eq_true, if_false, except_bind_ok_iff] at h
    obtain ⟨users, _, hpart⟩ := h
    by_cases haccounts : (r.protocol.accounts && users.isEmpty) = true
    · rw [if_pos haccounts, except_pure_ok_iff] at hpart
      exact Or.inl hpart
    · rw [if_neg haccounts, except_pure_ok_iff] at hpart
      exact Or.inr ⟨hdeployed, users, hpart⟩
  · simp only [hdeployed, Bool.not_false, if_true, Except.ok.injEq] at h
    exact Or.inl h.symm

/-- Every user with the protocols that take accounts is named. -/
theorem userOf_accounts {r : Inbound} (hr : r.protocol.accounts = true) {c : Doc}
    {user : Option Doc} (h : userOf r c = .ok user) : user.isSome = true := by
  cases hproto : r.protocol <;> rw [hproto] at hr <;> try cases hr
  all_goals
    simp only [userOf, hproto, except_bind_ok_iff, except_pure_ok_iff] at h
    obtain ⟨_, _, _, _, rfl⟩ := h
    rfl

/-- A deployed row with users, or whose protocol needs none, has listeners. -/
theorem rowListeners_some {clients : List CoreClient} {id : ℕ} {r : Inbound}
    {part : Option (Listener × Option Listener)} (h : rowListeners clients id r = .ok part)
    (hdeployed : r.deployed = true)
    (husers : r.protocol.accounts = true → ∃ c ∈ clients, c.serves id = true) :
    ∃ users, part = some (primaryListener r users,
      (localPort r.panelMeta).map (shadowListener id (primaryListener r users))) := by
  simp only [rowListeners, hdeployed, Bool.not_true, Bool.false_eq_true, if_false,
    except_bind_ok_iff] at h
  obtain ⟨users, hbuilt, hpart⟩ := h
  have hsome : ¬ (r.protocol.accounts && users.isEmpty) = true := by
    intro hempty
    rw [Bool.and_eq_true] at hempty
    obtain ⟨c, hc, hserves⟩ := husers hempty.1
    simp only [usersOf, except_bind_ok_iff, except_pure_ok_iff] at hbuilt
    obtain ⟨all, hall, rfl⟩ := hbuilt
    obtain ⟨user, hmem, huser⟩ :=
      exists_of_mem_mapM_left hall (List.mem_filter.mpr ⟨hc, hserves⟩)
    obtain ⟨doc, rfl⟩ := Option.isSome_iff_exists.mp (userOf_accounts hempty.1 huser)
    have hdoc : doc ∈ all.filterMap fun user => user :=
      List.mem_filterMap.mpr ⟨some doc, hmem, rfl⟩
    rw [List.isEmpty_iff.mp hempty.2] at hdoc
    cases hdoc
  rw [if_neg hsome, except_pure_ok_iff] at hpart
  exact ⟨users, hpart⟩

end Core
end DarkXray
