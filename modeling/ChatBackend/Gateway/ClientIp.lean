import ChatBackend.Chat.Messages
import ChatBackend.Foundations.Decimal

/-!
# The address of the client

`client_ip` takes the address that the limits per address go by from `X-Forwarded-For`, counted from
the right by the configured number of proxies. A proxy appends the address that it saw, not its own,
so the count is one too high: the answer is the last entry that the client has sent, if it has sent
any (`client_ip_chain`).
-/

namespace ChatBackend.Gateway

open Chat (strip isSpace)

/-- `ipaddress`: parsing, which may raise a `ValueError`, and membership. -/
structure IpLibrary where
  Address : Type
  Network : Type
  ipAddress : String → Option Address
  ipNetwork : String → Option Network
  contains : Network → Address → Bool

/-- The settings that `client_ip` reads. -/
structure ProxySettings where
  trustedProxyIps : String
  trustedProxyHopCount : ℤ

/-- What `client_ip` reads of a request. -/
structure Request where
  peer : Option String
  forwardedFor : Option String
  realIp : Option String

/-- The entries between commas, trimmed, without the empty ones. -/
def entriesOf (text : String) : List String :=
  ((text.toList.splitOn ',').map fun entry => strip (String.ofList entry)).filter (· ≠ "")

variable (lib : IpLibrary) (settings : ProxySettings)

/-- `trusted_proxy_networks`: an entry that is no network is skipped. -/
def trustedProxyNetworks : List lib.Network :=
  (entriesOf settings.trustedProxyIps).filterMap lib.ipNetwork

/-- `_is_trusted_proxy`. -/
def isTrustedProxy (ip : String) : Bool :=
  match lib.ipAddress ip with
  | none => false
  | some addr => (trustedProxyNetworks lib settings).any (lib.contains · addr)

/-- `hops[index]`, for the index counted from the right; there is none without hops. -/
def hopOf (hops : List String) : Option String :=
  let hopCount := max settings.trustedProxyHopCount 1
  let index := (hops.length : ℤ) - hopCount - 1
  hops[(if index < 0 then 0 else index).toNat]?

/-- `client_ip`. -/
def clientIp (request : Request) : Option String :=
  match request.peer with
  | none => none
  | some peer =>
    if isTrustedProxy lib settings peer = false then some peer
    else
      match (request.forwardedFor.filter (· ≠ "")).bind fun text => hopOf settings (entriesOf text) with
      | some hop => some hop
      | none =>
        match request.realIp.filter (· ≠ "") with
        | some realIp => some (strip realIp)
        | none => some peer

/-! ## Proxies -/

/-- The text of an address, as a proxy appends it. -/
structure AddressText where
  text : String
  ne_empty : text ≠ ""
  no_comma : ',' ∉ text.toList
  no_space : ∀ c ∈ text.toList, isSpace c = false

/-- A proxy appends the address that it saw to the header. -/
def appendForwarded (header : Option String) (seen : AddressText) : Option String :=
  match header with
  | none => some seen.text
  | some text => some (text ++ ", " ++ seen.text)

/-- The way of a request: the address of the client, as the outermost proxy saw it, and the
addresses of the proxies, the outermost one first. -/
structure Chain where
  client : AddressText
  outer : List AddressText
  last : AddressText

/-- All proxies. -/
def Chain.proxies (chain : Chain) : List AddressText := chain.outer ++ [chain.last]

/-- The request that reaches the app, for the headers that the client has sent: each proxy has seen
the one before it, and the app sees the last. -/
def Chain.request (chain : Chain) (forwardedFor realIp : Option String) : Request where
  peer := some chain.last.text
  forwardedFor := (chain.client :: chain.outer).foldl appendForwarded forwardedFor
  realIp := realIp

/-- The entries that the client has sent. -/
def clientEntries (forwardedFor : Option String) : List String :=
  (forwardedFor.map entriesOf).getD []

section Entries

theorem strip_space (l : List Char) : strip (String.ofList (' ' :: l)) = strip (String.ofList l) := by
  rw [strip, strip, String.toList_ofList, String.toList_ofList,
    List.dropWhile_cons_of_pos (by decide)]

/-- An address is one entry, also behind a space. -/
theorem entriesOf_address (a : AddressText) : entriesOf a.text = [a.text] ∧
    entriesOf (" " ++ a.text) = [a.text] := by
  have hstrip : strip (String.ofList a.text.toList) = a.text := by
    rw [String.ofList_toList, Chat.strip_eq_self a.no_space]
  have hkept : [a.text].filter (· ≠ "") = [a.text] :=
    List.filter_cons_of_pos (decide_eq_true a.ne_empty)
  constructor
  · rw [entriesOf, List.splitOn_eq_singleton a.no_comma, List.map_cons, List.map_nil, hstrip, hkept]
  · have hlist : (" " ++ a.text).toList = ' ' :: a.text.toList := by
      rw [String.toList_append]
      rfl
    have hcomma : ',' ∉ ' ' :: a.text.toList := by
      simpa using a.no_comma
    rw [entriesOf, hlist, List.splitOn_eq_singleton hcomma, List.map_cons, List.map_nil, strip_space,
      hstrip, hkept]

theorem entriesOf_append (text rest : String) :
    entriesOf (text ++ "," ++ rest) = entriesOf text ++ entriesOf rest := by
  have hlist : (text ++ "," ++ rest).toList = text.toList ++ ',' :: rest.toList := by
    rw [String.toList_append, String.toList_append, List.append_assoc]
    rfl
  rw [entriesOf, entriesOf, entriesOf, hlist,
    List.splitOn_append_cons_of_beq _ _ (beq_self_eq_true ','), List.map_append, List.filter_append]

/-- A proxy adds one entry. -/
theorem clientEntries_append (header : Option String) (seen : AddressText) :
    clientEntries (appendForwarded header seen) = clientEntries header ++ [seen.text] := by
  cases header with
  | none => exact (entriesOf_address seen).1
  | some text =>
    have hsplit : text ++ ", " ++ seen.text = text ++ "," ++ (" " ++ seen.text) := by
      rw [← String.toList_inj]
      simp [String.toList_append]
    show entriesOf (text ++ ", " ++ seen.text) = entriesOf text ++ [seen.text]
    rw [hsplit, entriesOf_append, (entriesOf_address seen).2]

theorem clientEntries_foldl (header : Option String) (seen : List AddressText) :
    clientEntries (seen.foldl appendForwarded header) =
      clientEntries header ++ seen.map AddressText.text := by
  induction seen generalizing header with
  | nil => exact (List.append_nil _).symm
  | cons a seen ih =>
    rw [List.foldl_cons, ih, clientEntries_append, List.append_assoc]
    rfl

end Entries

/-- The last entry that the client has sent, or its address when it has sent none. -/
def Chain.answer (chain : Chain) (forwardedFor : Option String) : String :=
  (clientEntries forwardedFor).getLast?.getD chain.client.text

section Chain

variable {chain : Chain} {forwardedFor realIp : Option String}

theorem Chain.entries_request : clientEntries (chain.request forwardedFor realIp).forwardedFor =
    clientEntries forwardedFor ++ chain.client.text :: chain.outer.map AddressText.text :=
  clientEntries_foldl forwardedFor (chain.client :: chain.outer)

/-- Counted from the right by all proxies and one more, the entry before that of the client's address
is reached, or that entry when there is none before it. -/
theorem hopOf_append (hcount : settings.trustedProxyHopCount = chain.proxies.length)
    (sent : List String) :
    hopOf settings (sent ++ chain.client.text :: chain.outer.map AddressText.text) =
      some (sent.getLast?.getD chain.client.text) := by
  have hcount' : max settings.trustedProxyHopCount 1 = (chain.outer.length : ℤ) + 1 := by
    rw [hcount, Chain.proxies, List.length_append, List.length_singleton]
    omega
  rw [hopOf, hcount']
  simp only [List.length_append, List.length_cons, List.length_map]
  cases hsent : sent.getLast? with
  | none =>
    rw [List.getLast?_eq_none_iff] at hsent
    subst hsent
    have hindex : ((([] : List String).length + (chain.outer.length + 1) : ℕ) : ℤ) -
        ((chain.outer.length : ℤ) + 1) - 1 < 0 := by
      simp
    rw [if_pos hindex]
    rfl
  | some e =>
    obtain ⟨pre, rfl⟩ := List.getLast?_eq_some_iff.1 hsent
    have hindex : ((((pre ++ [e]).length + (chain.outer.length + 1) : ℕ) : ℤ) -
        ((chain.outer.length : ℤ) + 1) - 1) = pre.length := by
      rw [List.length_append, List.length_singleton]
      omega
    rw [hindex, if_neg (by omega), Int.toNat_natCast, List.append_assoc]
    simp

theorem clientIp_request (hcount : settings.trustedProxyHopCount = chain.proxies.length)
    (htrusted : ∀ p ∈ chain.proxies, isTrustedProxy lib settings p.text = true) :
    clientIp lib settings (chain.request forwardedFor realIp) = some (chain.answer forwardedFor) := by
  have hlast : isTrustedProxy lib settings chain.last.text = true :=
    htrusted _ (List.mem_append_right _ (.head _))
  have hentries : clientEntries (chain.request forwardedFor realIp).forwardedFor =
      clientEntries forwardedFor ++ chain.client.text :: chain.outer.map AddressText.text :=
    Chain.entries_request
  cases htext : (chain.request forwardedFor realIp).forwardedFor with
  | none =>
    rw [htext] at hentries
    exact absurd hentries.symm (by simp [clientEntries])
  | some text =>
    rw [htext] at hentries
    have hne : text ≠ "" := by
      rintro rfl
      have hnone : clientEntries (some "") = [] := by decide +kernel
      exact absurd (hnone.symm.trans hentries).symm (by simp)
    have hhops : entriesOf text = clientEntries forwardedFor ++
        chain.client.text :: chain.outer.map AddressText.text := hentries
    have hfilter : (some text).filter (· ≠ "") = some text := by simp [hne]
    rw [clientIp]
    show (if isTrustedProxy lib settings chain.last.text = false then _ else _) = _
    rw [hlast, if_neg (by decide), htext, hfilter, Option.bind_some, hhops, hopOf_append settings hcount]
    rfl

end Chain

/-- **The address of a client behind proxies.** The client's address is found exactly when the client
has sent no entry of its own, or its own address as the last one; and two headers of the client make
no difference exactly when their last entries agree. -/
theorem client_ip_chain (chain : Chain) (hcount : settings.trustedProxyHopCount = chain.proxies.length)
    (htrusted : ∀ p ∈ chain.proxies, isTrustedProxy lib settings p.text = true)
    (forwardedFor realIp forwardedFor' realIp' : Option String) :
    (clientIp lib settings (chain.request forwardedFor realIp) = some chain.client.text ↔
      ∀ entry ∈ (clientEntries forwardedFor).getLast?, entry = chain.client.text) ∧
    (clientIp lib settings (chain.request forwardedFor realIp) =
        clientIp lib settings (chain.request forwardedFor' realIp') ↔
      (clientEntries forwardedFor).getLast?.getD chain.client.text =
        (clientEntries forwardedFor').getLast?.getD chain.client.text) := by
  rw [clientIp_request lib settings hcount htrusted, clientIp_request lib settings hcount htrusted]
  refine ⟨?_, Option.some_inj⟩
  rw [Option.some_inj, Chain.answer]
  cases (clientEntries forwardedFor).getLast? with
  | none => exact ⟨fun _ => nofun, fun _ => rfl⟩
  | some e => exact ⟨fun h entry hentry => Option.some.inj hentry ▸ h, fun h => h e rfl⟩

/-! ## A proxy in front of the app -/

/-- A number of an address: no more than three digits, and no leading zero. -/
def octet (text : List Char) : Option ℕ :=
  if text.length ≤ 3 ∧ (text.length = 1 ∨ text.head? ≠ some '0') ∧ text ≠ [] then
    (Decimal.read 10 text).filter (· ≤ 255)
  else none

def ipv4Address (text : List Char) : Option ℕ :=
  match (text.splitOn '.').mapM octet with
  | some [a, b, c, d] => some (((a * 256 + b) * 256 + c) * 256 + d)
  | _ => none

/-- An address with the length of a prefix. -/
def ipv4Network (text : List Char) : Option (ℕ × ℕ) :=
  match text.splitOn '/' with
  | [address] => (ipv4Address address).map (·, 32)
  | [address, length] => do
    let address ← ipv4Address address
    let length ← (Decimal.read 10 length).filter (· ≤ 32)
    some (address, length)
  | _ => none

/-- The library for addresses of version 4. -/
def ipv4 : IpLibrary where
  Address := ℕ
  Network := ℕ × ℕ
  ipAddress text := ipv4Address text.toList
  ipNetwork text := ipv4Network text.toList
  contains network address := address / 2 ^ (32 - network.2) = network.1 / 2 ^ (32 - network.2)

def oneProxy : ProxySettings := ⟨"172.18.0.0/16", 1⟩

theorem no_space_of_all {text : String} (h : (text.toList.all fun c => !isSpace c) = true) :
    ∀ c ∈ text.toList, isSpace c = false := by simpa using h

/-- A client behind one proxy. -/
def someChain : Chain where
  client := ⟨"203.0.113.7", by decide, by decide, no_space_of_all (by decide)⟩
  outer := []
  last := ⟨"172.18.0.7", by decide, by decide, no_space_of_all (by decide)⟩

theorem someChain_trusted : ∀ p ∈ someChain.proxies, isTrustedProxy ipv4 oneProxy p.text = true := by
  decide +kernel

theorem client_ip_chain_proxy :
    (clientIp ipv4 oneProxy (someChain.request none none) = some "203.0.113.7" ↔
      ∀ entry ∈ (clientEntries none).getLast?, entry = "203.0.113.7") ∧
    (clientIp ipv4 oneProxy (someChain.request none none) =
        clientIp ipv4 oneProxy (someChain.request (some " , ") none) ↔
      (clientEntries none).getLast?.getD "203.0.113.7" =
        (clientEntries (some " , ")).getLast?.getD "203.0.113.7") :=
  client_ip_chain ipv4 oneProxy someChain rfl someChain_trusted none none (some " , ") none

/-- The client sends an address of its choice, and it is taken for its own. -/
theorem client_ip_chain_fails : ¬∀ (lib : IpLibrary) (settings : ProxySettings) (chain : Chain),
    settings.trustedProxyHopCount = chain.proxies.length →
    (∀ p ∈ chain.proxies, isTrustedProxy lib settings p.text = true) →
    ∀ forwardedFor realIp forwardedFor' realIp' : Option String,
      clientIp lib settings (chain.request forwardedFor realIp) = some chain.client.text ∧
      clientIp lib settings (chain.request forwardedFor realIp) =
        clientIp lib settings (chain.request forwardedFor' realIp') := by
  intro h
  have hclaim := (h ipv4 oneProxy someChain rfl someChain_trusted (some "6.6.6.6") none none none).1
  have hspoofed : clientIp ipv4 oneProxy (someChain.request (some "6.6.6.6") none) = some "6.6.6.6" := by
    decide +kernel
  rw [hspoofed] at hclaim
  exact absurd hclaim (by decide)

end ChatBackend.Gateway
