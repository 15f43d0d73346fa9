import Rayfish.Firewall.HeaderChain

/-!
# What the packet parser reports

One inversion lemma per parser, and `no_invented_header_iff`: exactly when the
ports of a TCP or UDP packet are bytes of an unfragmented packet. IPv6 always keeps
this; IPv4 loses it on a first fragment and on a packet cut off before its ports.
-/

namespace Rayfish

open Lib

variable {p : Bytes} {info : PacketInfo} {f : Ipv6Fragment}

/-! ## Inversion of the parsers -/

theorem parseIpv4_some (h : parseIpv4 p = some info) :
    20 ≤ p.length ∧ 5 ≤ ipv4Ihl p ∧ ipv4Ihl p * 4 ≤ p.length ∧ ipv4FragWord p &&& 0x1FFF = 0 ∧
      info = packetInfo p (byte p 9) (ipv4Ihl p * 4) (.v4 (ipv4At p 12)) (.v4 (ipv4At p 16)) := by
  unfold parseIpv4 at h
  split at h
  · cases h
  split at h
  · cases h
  split at h
  · cases h
  split at h
  · cases h
  · next whole =>
    cases h
    exact ⟨by omega, by omega, by omega, by simpa using whole, rfl⟩

theorem parseIpv6_some (h : parseIpv6 p = some info) :
    40 ≤ p.length ∧ ∃ chain, ipv6Chain p = some chain ∧ chain.fragment = none ∧
      ((chain.protocol = 6 ∨ chain.protocol = 17) → chain.offset + 4 ≤ p.length) ∧
      info = packetInfo p chain.protocol chain.offset (.v6 (ipv6At p 8)) (.v6 (ipv6At p 24)) := by
  unfold parseIpv6 at h
  split at h
  · cases h
  obtain ⟨⟨protocol, headerLen⟩, upper, h⟩ := Option.bind_eq_some_iff.mp h
  obtain ⟨chain, chained, upper⟩ := Option.bind_eq_some_iff.mp upper
  obtain ⟨unfragmented, upper⟩ := Option.ite_none_right_eq_some.1 upper
  cases upper
  dsimp only at h
  split at h
  · cases h
  next ports =>
  cases h
  refine ⟨by omega, chain, chained, Option.isNone_iff_eq_none.mp unfragmented, ?_, rfl⟩
  intro tcpOrUdp
  by_contra cut
  exact ports ⟨tcpOrUdp, by omega⟩

theorem parsePacketInfo_v4 (h : ipVersion p = 4) : parsePacketInfo p = parseIpv4 p := if_pos h

theorem parsePacketInfo_v6 (h : ipVersion p = 6) : parsePacketInfo p = parseIpv6 p := by
  rw [parsePacketInfo, h]
  rfl

theorem parsePacketInfo_some (h : parsePacketInfo p = some info) :
    (ipVersion p = 4 ∧ parseIpv4 p = some info) ∨ (ipVersion p = 6 ∧ parseIpv6 p = some info) := by
  unfold parsePacketInfo at h
  split at h
  · next v4 => exact .inl ⟨v4, h⟩
  · obtain ⟨v6, h⟩ := Option.ite_none_right_eq_some.1 h
    exact .inr ⟨v6, h⟩

theorem parseIpv6Fragment_some (h : parseIpv6Fragment p = some f) :
    40 ≤ p.length ∧ ipVersion p = 6 ∧ ∃ chain header, ipv6Chain p = some chain ∧
      chain.fragment = some header ∧
      (header.offset = 0 → carriesUpperHeader p chain.protocol chain.offset = true) ∧
      f = ⟨packetInfo p chain.protocol chain.offset (.v6 (ipv6At p 8)) (.v6 (ipv6At p 24)),
        ⟨ipv6At p 8, ipv6At p 24, header.id⟩, header.offset == 0⟩ := by
  obtain ⟨shape, h⟩ := Option.ite_none_left_eq_some.1 h
  obtain ⟨chain, chained, h⟩ := Option.bind_eq_some_iff.mp h
  obtain ⟨header, fragmented, h⟩ := Option.bind_eq_some_iff.mp h
  simp only at h
  split at h
  · cases h
  next carries =>
  cases h
  rw [not_or, not_not] at shape
  refine ⟨by omega, shape.2, chain, header, chained, fragmented, ?_, rfl⟩
  intro first
  simpa [first] using carries

/-! ## Invented transport headers -/

def TcpOrUdp (protocol : UInt8) : Prop := protocol = 6 ∨ protocol = 17

/-- A fragment of any kind: IPv4 with MF set or a fragment offset, IPv6 with a
Fragment header in the walked chain. -/
def IsIpFragment (p : Bytes) : Prop :=
  (ipVersion p = 4 ∧ (ipv4FragWord p &&& 0x2000 ≠ 0 ∨ ipv4FragWord p &&& 0x1FFF ≠ 0)) ∨
    (ipVersion p = 6 ∧ ∃ n prev off fragment, HeaderAt p n prev off ipv6Fragment fragment)

/-- The four bytes at the transport offset lie in the packet and are the ports. -/
def PortsInside (p : Bytes) (info : PacketInfo) : Prop :=
  ∃ a b c d, p[info.transportOffset]? = some a ∧ p[info.transportOffset + 1]? = some b ∧
    p[info.transportOffset + 2]? = some c ∧ p[info.transportOffset + 3]? = some d ∧
    info.srcPort = be16 a b ∧ info.dstPort = be16 c d

/-- What a rule may rely on when it reads ports from a parsed packet. -/
structure NoInventedHeader (p : Bytes) : Prop where
  whole : ∀ info, parsePacketInfo p = some info → TcpOrUdp info.protocol →
    ¬IsIpFragment p ∧ PortsInside p info
  fragment : ∀ f, parseIpv6Fragment p = some f →
    (f.info.srcPort ≠ 0 ∨ f.info.dstPort ≠ 0 → f.first = true) ∧
    (f.first = true →
      (∃ n prev off header, HeaderAt p n prev off ipv6Fragment none ∧
        fragmentHeader p off = some header ∧ header.offset = 0) ∧
      carriesUpperHeader p f.info.protocol f.info.transportOffset = true ∧
      (TcpOrUdp f.info.protocol → PortsInside p f.info))

/-- The IPv4 packets whose ports are reported although they are a first
fragment, or are cut off before the ports. -/
def Ipv4PortsUnread (p : Bytes) : Prop :=
  ipVersion p = 4 ∧ 20 ≤ p.length ∧ 5 ≤ ipv4Ihl p ∧ ipv4Ihl p * 4 ≤ p.length ∧
    ipv4FragWord p &&& 0x1FFF = 0 ∧ TcpOrUdp (byte p 9) ∧
    (ipv4FragWord p &&& 0x2000 ≠ 0 ∨ p.length < ipv4Ihl p * 4 + 4)

theorem portsInside_packetInfo (transport : TcpOrUdp protocol) (fits : off + 4 ≤ p.length) :
    PortsInside p (packetInfo p protocol off src dst) := by
  have hp : (protocol != 6 && protocol != 17) = false := by
    rcases transport with rfl | rfl <;> rfl
  refine ⟨byte p off, byte p (off + 1), byte p (off + 2), byte p (off + 3),
    getElem?_byte ?_, getElem?_byte ?_, getElem?_byte ?_, getElem?_byte ?_, ?_, ?_⟩
  · show off < p.length
    omega
  · show off + 1 < p.length
    omega
  · show off + 2 < p.length
    omega
  · show off + 3 < p.length
    omega
  · show port p protocol off 0 = _
    rw [port, hp, if_neg Bool.false_ne_true, u16OrZero, if_pos (by omega)]
    rfl
  · show port p protocol off 2 = _
    rw [port, hp, if_neg Bool.false_ne_true, u16OrZero, if_pos (by omega)]

theorem length_of_portsInside (h : PortsInside p info) : info.transportOffset + 4 ≤ p.length := by
  obtain ⟨_, _, _, d, _, _, _, hd, _⟩ := h
  obtain ⟨inside, _⟩ := List.getElem?_eq_some_iff.mp hd
  omega

/-- A first fragment of a TCP or UDP packet holds the ports. -/
theorem ports_of_carriesUpperHeader (carries : carriesUpperHeader p protocol off = true)
    (transport : TcpOrUdp protocol) :
    off + 4 ≤ p.length := by
  unfold carriesUpperHeader at carries
  split at carries
  · cases carries
  next needed hn =>
  rcases transport with rfl | rfl
  · split at carries
    · cases carries
    · next long =>
      have := of_decide_eq_true carries
      have : ¬needed < 20 := fun short => long ⟨rfl, short⟩
      omega
  · cases hn
    have := of_decide_eq_true (carries : decide (off + 8 ≤ p.length) = true)
    omega

theorem not_fragment_of_parseIpv6 (v6 : ipVersion p = 6) (h : parseIpv6 p = some info) :
    ¬IsIpFragment p := by
  obtain ⟨_, chain, chained, unfragmented, _⟩ := parseIpv6_some h
  rintro (⟨v4, _⟩ | ⟨_, n, prev, off, fragment, at'⟩)
  · rw [v6] at v4
    cases v4
  · obtain ⟨_, header, _, fragmented, _⟩ := chain_through_fragment at' chained
    rw [unfragmented] at fragmented
    cases fragmented

/-- Both fragment clauses hold for every byte string. -/
theorem fragment_ports (h : parseIpv6Fragment p = some f) :
    (f.info.srcPort ≠ 0 ∨ f.info.dstPort ≠ 0 → f.first = true) ∧
    (f.first = true →
      (∃ n prev off header, HeaderAt p n prev off ipv6Fragment none ∧
        fragmentHeader p off = some header ∧ header.offset = 0) ∧
      carriesUpperHeader p f.info.protocol f.info.transportOffset = true ∧
      (TcpOrUdp f.info.protocol → PortsInside p f.info)) := by
  obtain ⟨long, _, chain, header, chained, fragmented, carries, rfl⟩ := parseIpv6Fragment_some h
  have start : HeaderAt p 0 6 40 (byte p 6) none := .fixed (getElem?_byte (by omega))
  obtain ⟨n, prev, off, at', hh⟩ := headerAt_fragment start chained fragmented
  refine ⟨?_, fun first => ?_⟩
  · intro reported
    by_contra later
    -- a later fragment reports the protocol 44, which has no ports
    obtain ⟨_, header', hh', _, ⟨_, rfl⟩ | ⟨first, _⟩⟩ := chain_through_fragment at' chained
    · rcases reported with h | h <;> exact h rfl
    · rw [hh] at hh'
      cases hh'
      exact later (beq_iff_eq.mpr first)
  · have first : header.offset = 0 := beq_iff_eq.mp first
    exact ⟨⟨n, prev, off, header, at', hh, first⟩, carries first, fun transport =>
      portsInside_packetInfo transport (ports_of_carriesUpperHeader (carries first) transport)⟩

/-- The parser reports no invented transport header exactly outside the IPv4
packets that are first fragments, or are cut off before the ports. -/
theorem no_invented_header_iff (p : Bytes) : NoInventedHeader p ↔ ¬Ipv4PortsUnread p := by
  constructor
  · rintro ⟨whole, _⟩ ⟨v4, long, ihl, fits, unshifted, transport, unread⟩
    have parsed : parsePacketInfo p = some (packetInfo p (byte p 9) (ipv4Ihl p * 4)
        (.v4 (ipv4At p 12)) (.v4 (ipv4At p 16))) := by
      rw [parsePacketInfo_v4 v4, parseIpv4, if_neg (by omega), if_neg (by omega),
        if_neg (by omega), unshifted]
      rfl
    obtain ⟨notFragment, ports⟩ := whole _ parsed transport
    rcases unread with more | cut
    · exact notFragment (.inl ⟨v4, .inl more⟩)
    · have inside : ipv4Ihl p * 4 + 4 ≤ p.length := length_of_portsInside ports
      omega
  · intro read
    refine ⟨fun info parsed transport => ?_, fun f => fragment_ports⟩
    rcases parsePacketInfo_some parsed with ⟨v4, parsed⟩ | ⟨v6, parsed⟩
    · obtain ⟨long, ihl, fits, unshifted, rfl⟩ := parseIpv4_some parsed
      have clear : ipv4FragWord p &&& 0x2000 = 0 ∧ ipv4Ihl p * 4 + 4 ≤ p.length := by
        by_contra unclear
        refine read ⟨v4, long, ihl, fits, unshifted, transport, ?_⟩
        by_cases more : ipv4FragWord p &&& 0x2000 = 0
        · exact .inr (by by_contra cut; exact unclear ⟨more, by omega⟩)
        · exact .inl more
      refine ⟨?_, portsInside_packetInfo transport clear.2⟩
      rintro (⟨_, more | shifted⟩ | ⟨v6, _⟩)
      · exact more clear.1
      · exact shifted unshifted
      · rw [v4] at v6
        cases v6
    · refine ⟨not_fragment_of_parseIpv6 v6 parsed, ?_⟩
      obtain ⟨_, chain, _, _, inside, rfl⟩ := parseIpv6_some parsed
      exact portsInside_packetInfo transport (inside transport)

/-- A UDP first fragment, MF set and offset 0, from 10.0.0.1:12345 to 10.0.0.2:53. -/
def moreFragmentsDatagram : Bytes :=
  [0x45, 0, 0, 28, 0, 1, 0x20, 0, 64, 17, 0, 0, 10, 0, 0, 1, 10, 0, 0, 2,
    0x30, 0x39, 0, 53, 0, 8, 0, 0]

theorem moreFragmentsDatagram_invented :
    IsIpFragment moreFragmentsDatagram ∧
      parsePacketInfo moreFragmentsDatagram =
        some ⟨.v4 0x0a000001, .v4 0x0a000002, 17, 12345, 53, 0, 0, 0, 20⟩ ∧
      ¬NoInventedHeader moreFragmentsDatagram := by
  have fragment : IsIpFragment moreFragmentsDatagram := .inl ⟨by decide, .inl (by decide)⟩
  have parsed : parsePacketInfo moreFragmentsDatagram =
      some ⟨.v4 0x0a000001, .v4 0x0a000002, 17, 12345, 53, 0, 0, 0, 20⟩ := by decide
  exact ⟨fragment, parsed, fun ok => (ok.whole _ parsed (.inr rfl)).1 fragment⟩

end Rayfish
