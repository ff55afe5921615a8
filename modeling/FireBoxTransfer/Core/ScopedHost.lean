import FireBoxTransfer.Core.IpAddr
import FireBoxTransfer.Core.Queries
import FireBoxTransfer.Framework.Texts

/-!
# Hosts with a scope

URLs carry no scope, so the client turns `fe80::1%3` into a synthetic host
name, and its resolver turns the name back. The encoder takes an IPv6 address
with a numeric scope, unless the address is IPv4-mapped: such an address is
refused on purpose, also where the server reports a peer with one.
-/

namespace FireBoxTransfer

namespace ScopedHost

/-! ## §1  The decoder -/

/-- `replace` of one character by another. -/
def replace (old new : Char) (cs : List Char) : List Char :=
  cs.map fun c => if c = old then new else c

/-- The port is a placeholder. -/
def decode (name : String) : Option SocketAddr := do
  let encoded ← name.toList.dropSuffix? suffix.toList
  let (address, scope) ← Texts.splitOnce 's' encoded
  let address ← parseIpv6Addr (replace '-' ':' address)
  let scope ← parseU32 (.ofList scope)
  some (.v6 address 0 (.ofNat 32 scope))

/-! ## §2  What is encoded is decoded -/

section Decode

variable {address : BitVec 128} {scope : BitVec 32}

/-- The name of an address with a scope. -/
def nameOf (address : BitVec 128) (scope : BitVec 32) : String :=
  String.ofList (replace ':' '-' (ipv6Text address)) ++ "s" ++ toString scope.toNat ++ suffix

theorem parseU32_toString (n : BitVec 32) : parseU32 (toString n.toNat) = some n.toNat := by
  have hlist : (toString n.toNat).toList = Nat.toDigits 10 n.toNat := Texts.toList_toString _
  have hdigits : ∀ c ∈ Nat.toDigits 10 n.toNat, c.isDigit = true := by
    intro c hc
    rw [← hlist] at hc
    exact Texts.isDigit_of_mem_toString hc
  have hplus : ∀ digits, Nat.toDigits 10 n.toNat ≠ '+' :: digits := by
    intro digits heq
    have hdigit := hdigits '+' (by rw [heq]; exact List.mem_cons_self)
    exact absurd hdigit (by decide)
  have hempty : (Nat.toDigits 10 n.toNat).isEmpty = false := by
    rw [List.isEmpty_eq_false_iff]
    exact Nat.toDigits_ne_nil
  have hvalue : (Nat.toDigits 10 n.toNat).foldl (fun n c => 10 * n + (c.toNat - 0x30)) 0 =
      n.toNat := Nat.ofDigitChars_ten_toDigits
  unfold parseU32
  rw [hlist]
  split
  · rename_i digits heq
    exact absurd heq (hplus digits)
  · dsimp only
    rw [hempty, List.all_eq_true.mpr hdigits, hvalue]
    exact if_pos n.isLt

theorem replace_replace {old new : Char} {cs : List Char} (h : new ∉ cs) :
    replace new old (replace old new cs) = cs := by
  unfold replace
  rw [List.map_map]
  refine (List.map_congr_left fun c hc => ?_).trans (List.map_id cs)
  have hne : c ≠ new := fun heq => h (heq ▸ hc)
  by_cases hold : c = old
  · simp [hold]
  · simp [hold, hne]

theorem separator_not_mem (h : ¬ IsIpv4Mapped address) :
    's' ∉ replace ':' '-' (ipv6Text address) := by
  intro hmem
  obtain ⟨c, hc, heq⟩ := List.mem_map.mp hmem
  have hgroup := mem_ipv6Text h hc
  split_ifs at heq with hcolon
  · exact absurd heq (by decide)
  · exact absurd (heq ▸ hgroup) (by decide)

theorem decode_nameOf (h : ¬ IsIpv4Mapped address) :
    decode (nameOf address scope) = some (.v6 address 0 scope) := by
  have hname : (nameOf address scope).toList =
      replace ':' '-' (ipv6Text address) ++ 's' :: (toString scope.toNat).toList ++
        suffix.toList := by
    unfold nameOf
    rw [String.toList_append, String.toList_append, String.toList_append, String.toList_ofList,
      List.append_assoc (replace ':' '-' (ipv6Text address))]
    rfl
  have hsuffix : (nameOf address scope).toList.dropSuffix? suffix.toList =
      some (replace ':' '-' (ipv6Text address) ++ 's' :: (toString scope.toNat).toList) := by
    rw [hname]
    exact List.dropSuffix?_eq_some_iff.mpr ⟨suffix.toList, rfl, BEq.rfl⟩
  have hsplit : Texts.splitOnce 's'
      (replace ':' '-' (ipv6Text address) ++ 's' :: (toString scope.toNat).toList) =
      some (replace ':' '-' (ipv6Text address), (toString scope.toNat).toList) :=
    Texts.splitOnce_eq_some.mpr ⟨rfl, separator_not_mem h⟩
  have hdash : '-' ∉ ipv6Text address := fun hmem => absurd (mem_ipv6Text h hmem) (by decide)
  unfold decode
  rw [hsuffix, Option.bind_eq_bind, Option.bind_some, hsplit, Option.bind_eq_bind,
    Option.bind_some]
  dsimp only
  rw [replace_replace hdash, parseIpv6Addr_text h, Option.bind_eq_bind, Option.bind_some,
    String.ofList_toList, parseU32_toString, Option.bind_eq_bind, Option.bind_some,
    BitVec.ofNat_toNat, BitVec.setWidth_eq]

end Decode

/-! ## §3  Which hosts are encoded -/

/-- The host is an IPv6 address that is not mapped, `%` and a scope. -/
def IsScopedHost (host : String) (address : BitVec 128) (scope : BitVec 32) : Prop :=
  ¬ IsIpv4Mapped address ∧ ∃ addressText scopeText,
    host.toList = addressText ++ '%' :: scopeText ∧
      parseIpv6Addr addressText = some address ∧
      parseU32 (.ofList scopeText) = some scope.toNat

section Encode

variable {host name : String} {address : BitVec 128} {scope : BitVec 32}

/-- `%` does not stand in an address, so the first one is the separator. -/
theorem percent_not_mem {addressText : List Char} (h : parseIpv6Addr addressText = some address) :
    '%' ∉ addressText := by
  intro hmem
  obtain ⟨segments, hparse, -⟩ := Option.map_eq_some_iff.mp h
  exact absurd (InetText.parseIpv6_chars hparse _ hmem) (by decide)

theorem parseU32_lt {text : String} {n : ℕ} (h : parseU32 text = some n) : n < 2 ^ 32 := by
  unfold parseU32 at h
  dsimp only at h
  split_ifs at h with _ hlt
  rwa [← Option.some.inj h]

theorem ipv6_ofList (addressText : List Char) : ipv6 (.ofList addressText) =
    (parseIpv6Addr addressText).map fun address => .ofList (ipv6Text address) := by
  unfold ipv6
  rw [String.toList_ofList]

theorem encode_eq_some : encode host = some name ↔
    ∃ address scope, IsScopedHost host address scope ∧ name = nameOf address scope := by
  constructor
  · intro h
    unfold encode at h
    split at h
    · cases h
    · rename_i c scopeText hdrop
      rw [ipv6_ofList] at h
      split at h
      · rename_i address scope haddress hscope
        split_ifs at h with hdot
        obtain ⟨addr, haddr, rfl⟩ := Option.map_eq_some_iff.mp haddress
        rw [String.toList_ofList] at h hdot
        have hmapped : ¬ IsIpv4Mapped addr := fun hmapped => hdot (dot_mem_ipv6Text.mpr hmapped)
        have hnat : (BitVec.ofNat 32 scope).toNat = scope :=
          Nat.mod_eq_of_lt (parseU32_lt hscope)
        have hhead : c = '%' := by
          have hfirst := List.head?_dropWhile_not (fun c => decide (c ≠ '%')) host.toList
          rw [hdrop] at hfirst
          simpa using hfirst
        have hcut := List.takeWhile_append_dropWhile (p := (· ≠ '%')) (l := host.toList)
        rw [hdrop, hhead] at hcut
        refine ⟨addr, .ofNat 32 scope, ⟨hmapped, _, scopeText, hcut.symm, haddr, ?_⟩, ?_⟩
        · rw [hnat]
          exact hscope
        · unfold nameOf
          rw [hnat]
          exact (Option.some.inj h).symm
      · cases h
  · rintro ⟨address, scope, ⟨hmapped, addressText, scopeText, hhost, haddress, hscope⟩, rfl⟩
    have hpercent : ∀ c ∈ addressText, decide (c ≠ '%') = true := by
      intro c hc
      rw [decide_eq_true_iff]
      rintro rfl
      exact percent_not_mem haddress hc
    have htake : host.toList.takeWhile (· ≠ '%') = addressText := by
      rw [hhost, List.takeWhile_append_of_pos hpercent, List.takeWhile_cons_of_neg (by simp),
        List.append_nil]
    have hdrop : host.toList.dropWhile (· ≠ '%') = '%' :: scopeText := by
      rw [hhost, List.dropWhile_append_of_pos hpercent, List.dropWhile_cons_of_neg (by simp)]
    have hdot : '.' ∉ (String.ofList (ipv6Text address)).toList := by
      rw [String.toList_ofList]
      exact fun hdot => hmapped (dot_mem_ipv6Text.mp hdot)
    unfold encode
    rw [hdrop]
    dsimp only
    rw [htake, ipv6_ofList, haddress, hscope]
    dsimp only [Option.map_some]
    rw [if_neg hdot, String.toList_ofList]
    rfl

/-- A host has one address and one scope. -/
theorem IsScopedHost.unique {address' : BitVec 128} {scope' : BitVec 32}
    (h : IsScopedHost host address scope) (h' : IsScopedHost host address' scope') :
    address = address' ∧ scope = scope' := by
  obtain ⟨-, addressText, scopeText, hhost, haddress, hscope⟩ := h
  obtain ⟨-, addressText', scopeText', hhost', haddress', hscope'⟩ := h'
  have hsplit := Texts.splitOnce_eq_some.mpr ⟨hhost, percent_not_mem haddress⟩
  have hsplit' := Texts.splitOnce_eq_some.mpr ⟨hhost', percent_not_mem haddress'⟩
  obtain ⟨rfl, rfl⟩ := Prod.mk.inj (Option.some.inj (hsplit.symm.trans hsplit'))
  exact ⟨Option.some.inj (haddress.symm.trans haddress'),
    BitVec.eq_of_toNat_eq (Option.some.inj (hscope.symm.trans hscope'))⟩

theorem decode_encode (h : encode host = some name)
    (hhost : IsScopedHost host address scope) : decode name = some (.v6 address 0 scope) := by
  obtain ⟨address', scope', hhost', rfl⟩ := encode_eq_some.mp h
  obtain ⟨rfl, rfl⟩ := hhost.unique hhost'
  exact decode_nameOf hhost.1

end Encode

end ScopedHost

/-! ## §4  The peers that a server reports -/

/-- `Display` of a peer. -/
def PeerIp.text (peer : PeerIp) : String :=
  match peer.scopeId with
  | some scopeId => .ofList peer.ip.text ++ "%" ++ toString scopeId.toNat
  | none => .ofList peer.ip.text

namespace ScopedHost

/-- Only an IPv6 peer has a scope. -/
theorem fromRemoteAddr_scopeId {remoteAddr : SocketAddr} {scope : BitVec 32}
    (h : (PeerIp.fromRemoteAddr remoteAddr).scopeId = some scope) :
    ∃ address, (PeerIp.fromRemoteAddr remoteAddr).ip = .v6 address := by
  cases remoteAddr with
  | v4 ip port => cases h
  | v6 ip port scopeId => exact ⟨ip, rfl⟩

theorem toList_text {peer : PeerIp} {address : BitVec 128} {scope : BitVec 32}
    (hip : peer.ip = .v6 address) (hscope : peer.scopeId = some scope) :
    peer.text.toList = ipv6Text address ++ '%' :: (toString scope.toNat).toList := by
  unfold PeerIp.text
  rw [hscope, hip]
  dsimp only [IpAddr.text]
  rw [String.toList_append, String.toList_append, String.toList_ofList, List.append_assoc]
  rfl

/-- The text of a scoped peer is a scoped host, unless the peer is mapped. -/
theorem isScopedHost_text {peer : PeerIp} {address : BitVec 128} {scope : BitVec 32}
    (hip : peer.ip = .v6 address) (hscope : peer.scopeId = some scope)
    (hmapped : ¬ IsIpv4Mapped address) : IsScopedHost peer.text address scope := by
  refine ⟨hmapped, _, _, toList_text hip hscope, parseIpv6Addr_text hmapped, ?_⟩
  rw [String.ofList_toList]
  exact parseU32_toString scope

/-- **What the encoder takes comes back**: the scoped hosts are encoded and no
others, the name decodes to the address and the scope, and so does the name of
a scoped peer that is not mapped. -/
theorem scopedHost_roundTrip :
    (∀ host, (encode host).isSome ↔ ∃ address scope, IsScopedHost host address scope) ∧
    (∀ host name address scope, encode host = some name → IsScopedHost host address scope →
      decode name = some (.v6 address 0 scope)) ∧
    (∀ remoteAddr scope, (PeerIp.fromRemoteAddr remoteAddr).scopeId = some scope →
      ∃ address, (PeerIp.fromRemoteAddr remoteAddr).ip = .v6 address ∧
        (¬ IsIpv4Mapped address →
          ∃ name, encode (PeerIp.fromRemoteAddr remoteAddr).text = some name ∧
            decode name = some (.v6 address 0 scope))) := by
  refine ⟨fun host => ?_, fun _ _ _ _ => decode_encode, fun remoteAddr scope hscope => ?_⟩
  · constructor
    · intro h
      obtain ⟨name, hname⟩ := Option.isSome_iff_exists.mp h
      obtain ⟨address, scope, hhost, -⟩ := encode_eq_some.mp hname
      exact ⟨address, scope, hhost⟩
    · rintro ⟨address, scope, hhost⟩
      exact Option.isSome_iff_exists.mpr ⟨_, encode_eq_some.mpr ⟨address, scope, hhost, rfl⟩⟩
  · obtain ⟨address, hip⟩ := fromRemoteAddr_scopeId hscope
    refine ⟨address, hip, fun hmapped => ?_⟩
    have hhost := isScopedHost_text hip hscope hmapped
    exact ⟨nameOf address scope, encode_eq_some.mpr ⟨address, scope, hhost, rfl⟩,
      decode_nameOf hmapped⟩

/-- A peer on `::ffff:1.2.3.4` with scope 3. -/
def mappedPeer : SocketAddr := .v6 0xffff01020304 50000 3

/-- Its address and its scope are refused. -/
theorem mapped_peer_refused :
    (PeerIp.fromRemoteAddr mappedPeer).scopeId = some 3 ∧
      encode (PeerIp.fromRemoteAddr mappedPeer).text = none := by
  refine ⟨rfl, ?_⟩
  cases hencode : encode (PeerIp.fromRemoteAddr mappedPeer).text with
  | none => rfl
  | some name =>
      obtain ⟨address, scope, ⟨hmapped, addressText, scopeText, hhost, haddress, -⟩, -⟩ :=
        encode_eq_some.mp hencode
      have hscope : (PeerIp.fromRemoteAddr mappedPeer).scopeId = some (3 : BitVec 32) := rfl
      have htext := toList_text rfl hscope
      have hpercent : '%' ∉ ipv6Text 0xffff01020304 := by decide
      have hsplit := Texts.splitOnce_eq_some.mpr ⟨htext, hpercent⟩
      have hsplit' := Texts.splitOnce_eq_some.mpr ⟨hhost, percent_not_mem haddress⟩
      obtain ⟨rfl, -⟩ := Prod.mk.inj (Option.some.inj (hsplit.symm.trans hsplit'))
      have hmappedAddress : parseIpv6Addr (ipv6Text 0xffff01020304) = some 0xffff01020304 := by
        decide
      rw [hmappedAddress] at haddress
      obtain rfl := Option.some.inj haddress
      exact absurd (by decide) hmapped

end ScopedHost

end FireBoxTransfer
