import Mathlib.Data.List.Basic

/-!
# Peer ids and multiaddresses

The address vocabulary of `src/net/peers.rs`. A `Multiaddr` is the list of `Protocol`
components its `iter()` yields, so `iter().next()` is `head?`, `iter().last()` is `getLast?` and
`push` appends one component. `normalizeAddr` and `normalizeAddrRef` are the two forms of the
source's normalization, and `Multiaddr.isLoopback` is the test of `MultiaddrExt`. The main
facts are `normalizeAddrRef_deref` (the two normalizations agree) and
`normalizeAddr_normalizeAddr` (normalizing twice is normalizing once).
-/

namespace IpfsEmbed.Net

/-- An opaque peer identity, compared by value. -/
structure PeerId where
  digest : Nat
  deriving DecidableEq, Repr

/-- An IPv4 address by its four octets. -/
structure Ipv4Addr where
  a : UInt8
  b : UInt8
  c : UInt8
  d : UInt8
  deriving DecidableEq, Repr

/-- `Ipv4Addr::is_loopback`: the first octet is 127, that is the address lies in
`127.0.0.0/8`. -/
def Ipv4Addr.isLoopback (addr : Ipv4Addr) : Bool :=
  addr.a == 127

/-- An IPv6 address as the 128-bit number its sixteen octets spell. -/
structure Ipv6Addr where
  bits : BitVec 128
  deriving DecidableEq, Repr

/-- `Ipv6Addr::is_loopback`: the address is `::1`. -/
def Ipv6Addr.isLoopback (addr : Ipv6Addr) : Bool :=
  addr.bits == 1

/-- The components of a multiaddress that the address book can meet. `p2p` carries the peer
id whose multihash the component holds. -/
inductive Protocol where
  | ip4 (addr : Ipv4Addr)
  | ip6 (addr : Ipv6Addr)
  | dns (name : String)
  | tcp (port : UInt16)
  | udp (port : UInt16)
  | quic
  | p2p (peer : PeerId)
  deriving DecidableEq, Repr

/-- A multiaddress: its components in order. -/
abbrev Multiaddr := List Protocol

/-- `normalize_addr`: append `/p2p/peer` unless the last component is already a `/p2p`
component, whichever peer that one names. -/
def normalizeAddr (addr : Multiaddr) (peer : PeerId) : Multiaddr :=
  match addr.getLast? with
  | some (.p2p _) => addr
  | _ => addr ++ [.p2p peer]

/-- `std::borrow::Cow`: a value that is either borrowed or owned. -/
inductive Cow (α : Type) where
  | borrowed (value : α)
  | owned (value : α)

/-- The value a `Cow` dereferences to. -/
def Cow.deref {α : Type} : Cow α → α
  | .borrowed value => value
  | .owned value => value

/-- `normalize_addr_ref`: borrow `addr` when it already ends with a `/p2p` component, and
otherwise return an owned copy with `/p2p/peer` pushed. -/
def normalizeAddrRef (addr : Multiaddr) (peer : PeerId) : Cow Multiaddr :=
  match addr.getLast? with
  | some (.p2p _) => .borrowed addr
  | _ => .owned (addr ++ [.p2p peer])

/-- `MultiaddrExt::is_loopback`: only an address whose first component is a non-loopback
IPv4 address answers `false`. -/
def Multiaddr.isLoopback (addr : Multiaddr) : Bool :=
  match addr.head? with
  | some (.ip4 ip) => if !ip.isLoopback then false else true
  | _ => true

/-- The address ends with a `/p2p` component. -/
def EndsWithP2p (addr : Multiaddr) : Prop :=
  ∃ peer, addr.getLast? = some (.p2p peer)

/-! ## Normalization -/

theorem normalizeAddr_of_endsWithP2p {addr : Multiaddr} (peer : PeerId)
    (h : EndsWithP2p addr) : normalizeAddr addr peer = addr := by
  obtain ⟨q, hq⟩ := h
  simp [normalizeAddr, hq]

theorem normalizeAddr_of_not_endsWithP2p {addr : Multiaddr} (peer : PeerId)
    (h : ¬ EndsWithP2p addr) : normalizeAddr addr peer = addr ++ [.p2p peer] := by
  unfold normalizeAddr
  split
  · exact absurd ⟨_, ‹_›⟩ h
  · rfl

/-- A normalized address ends with a `/p2p` component. -/
theorem endsWithP2p_normalizeAddr (addr : Multiaddr) (peer : PeerId) :
    EndsWithP2p (normalizeAddr addr peer) := by
  by_cases h : EndsWithP2p addr
  · rwa [normalizeAddr_of_endsWithP2p peer h]
  · rw [normalizeAddr_of_not_endsWithP2p peer h]
    exact ⟨peer, List.getLast?_concat _⟩

/-- Normalization is idempotent: the connection callbacks normalize an address and then hand
it to `add_address`, which normalizes it again. -/
@[simp] theorem normalizeAddr_normalizeAddr (addr : Multiaddr) (peer : PeerId) :
    normalizeAddr (normalizeAddr addr peer) peer = normalizeAddr addr peer :=
  normalizeAddr_of_endsWithP2p peer (endsWithP2p_normalizeAddr addr peer)

/-- `normalize_addr_ref` dereferences to what `normalize_addr` writes in place. -/
@[simp] theorem normalizeAddrRef_deref (addr : Multiaddr) (peer : PeerId) :
    (normalizeAddrRef addr peer).deref = normalizeAddr addr peer := by
  unfold normalizeAddrRef normalizeAddr
  split <;> rfl

/-- An address without a trailing `/p2p` component and the same address with `/p2p/peer`
pushed normalize to one key. -/
theorem normalizeAddr_push_p2p {addr : Multiaddr} (peer : PeerId) (h : ¬ EndsWithP2p addr) :
    normalizeAddr (addr ++ [.p2p peer]) peer = normalizeAddr addr peer := by
  rw [normalizeAddr_of_not_endsWithP2p peer h]
  exact normalizeAddr_of_endsWithP2p peer ⟨peer, List.getLast?_concat _⟩

/-- The normalized address keeps the owner's peer id exactly when the given address did not
already end with a `/p2p` component. -/
theorem getLast?_normalizeAddr_of_not_endsWithP2p {addr : Multiaddr} (peer : PeerId)
    (h : ¬ EndsWithP2p addr) : (normalizeAddr addr peer).getLast? = some (.p2p peer) := by
  rw [normalizeAddr_of_not_endsWithP2p peer h, List.getLast?_concat]

/-- A normalized address whose trailing `/p2p` component names another peer is the address that
was given: normalization only ever appends the owner's id. -/
theorem normalizeAddr_eq_self_of_foreign {addr : Multiaddr} {peer other : PeerId}
    (hother : other ≠ peer) (h : (normalizeAddr addr peer).getLast? = some (.p2p other)) :
    normalizeAddr addr peer = addr := by
  by_cases hend : EndsWithP2p addr
  · exact normalizeAddr_of_endsWithP2p peer hend
  · rw [getLast?_normalizeAddr_of_not_endsWithP2p peer hend] at h
    cases h
    exact absurd rfl hother

/-! ## The loopback test -/

/-- Normalization appends at the end, so it never changes the loopback verdict. -/
@[simp] theorem isLoopback_normalizeAddr (addr : Multiaddr) (peer : PeerId) :
    (normalizeAddr addr peer).isLoopback = addr.isLoopback := by
  unfold normalizeAddr
  split
  · rfl
  · cases addr <;> simp [Multiaddr.isLoopback]

/-- `is_loopback` answers `false` exactly for an address that starts with a non-loopback
IPv4 address. -/
theorem isLoopback_eq_false_iff (addr : Multiaddr) :
    addr.isLoopback = false ↔ ∃ ip rest, addr = .ip4 ip :: rest ∧ ip.isLoopback = false := by
  match addr with
  | [] => simp [Multiaddr.isLoopback]
  | .ip4 ip :: rest => cases h : ip.isLoopback <;> simp [Multiaddr.isLoopback, h]
  | .ip6 _ :: _ | .dns _ :: _ | .tcp _ :: _ | .udp _ :: _ | .quic :: _ | .p2p _ :: _ =>
      simp [Multiaddr.isLoopback]

end IpfsEmbed.Net
