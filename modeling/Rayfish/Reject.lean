import Mathlib.Data.Nat.Bitwise
import Rayfish.Firewall.PacketSpec
import Rayfish.Lib.OnesComplement

/-!
# Reject replies

The replies to denied packets and to packets that are too big (`reject.rs`): a TCP reset or
an ICMP error that quotes the packet, with addresses and ports swapped. Every reply is well
formed (`reply_wellFormed`): it parses back, its checksums and lengths are right, it fits
the smallest IPv6 link, a reset follows RFC 793, and no reply is answered by another one.
-/

namespace Rayfish

open Lib

def mtu : Nat := 1280

def protoIcmpv4 : UInt8 := 1

def protoTcp : UInt8 := 6

def protoIcmpv6 : UInt8 := 58

def tcpFin : UInt8 := 0x01

def tcpSyn : UInt8 := 0x02

def tcpRst : UInt8 := 0x04

def tcpAck : UInt8 := 0x10

/-- `ip.octets()`. -/
def ipv4Octets (ip : Ipv4Addr) : Bytes := beBytes 4 ip.toNat

/-- `ip.octets()`. -/
def ipv6Octets (ip : Ipv6Addr) : Bytes := beBytes 16 ip.toNat

/-! ## Whom not to answer -/

/-- Multicast, broadcast or the unspecified address. -/
def isMulticastOrUnspecified : IpAddr → Bool
  | .v4 ip => octet ip 0 &&& 0xf0 == 0xe0 || ip == 0xffffffff || ip == 0
  | .v6 ip => segment0 ip &&& 0xff00 == 0xff00 || ip == 0

def isIcmpError (info : PacketInfo) : Bool :=
  if info.protocol = protoIcmpv4 then info.icmpType ∈ [3, 4, 5, 11, 12]
  else if info.protocol = protoIcmpv6 then info.icmpType < 128
  else false

/-! ## IP wrappers -/

/-- An IPv4 header without options. -/
def ipv4Header (src dst : Ipv4Addr) (proto : UInt8) (total : Nat) (check : UInt16) : Bytes :=
  [0x45, 0] ++ beBytes 2 total ++ [0, 0, 0, 0] ++ [64, proto] ++ beBytes 2 check.toNat ++
    ipv4Octets src ++ ipv4Octets dst

def wrapIpv4 (src dst : Ipv4Addr) (proto : UInt8) (payload : Bytes) : Bytes :=
  let total := 20 + payload.length
  let csum := fold (wordSum (ipv4Header src dst proto total 0))
  ipv4Header src dst proto total csum ++ payload

def ipv6Header (src dst : Ipv6Addr) (nextHeader : UInt8) (payloadLen : Nat) : Bytes :=
  [0x60, 0, 0, 0] ++ beBytes 2 payloadLen ++ [nextHeader, 64] ++ ipv6Octets src ++ ipv6Octets dst

def wrapIpv6 (src dst : Ipv6Addr) (nextHeader : UInt8) (payload : Bytes) : Bytes :=
  ipv6Header src dst nextHeader payload.length ++ payload

/-! ## Checksums -/

def icmpv4Checksum (msg : Bytes) : UInt16 := fold (wordSum msg)

def tcpChecksumV4 (src dst : Ipv4Addr) (seg : Bytes) : UInt16 :=
  fold (wordSum (ipv4Octets src) + wordSum (ipv4Octets dst) + protoTcp.toNat + seg.length +
    wordSum seg)

/-- The IPv6 pseudo-header checksum, for TCP and ICMPv6. -/
def icmpv6LikeChecksum (src dst : Ipv6Addr) (nextHeader : UInt8) (payload : Bytes) : UInt16 :=
  fold (wordSum (ipv6Octets src) + wordSum (ipv6Octets dst) + payload.length + nextHeader.toNat +
    wordSum payload)

/-! ## TCP resets -/

section

variable (packet : Bytes) (info : PacketInfo)

/-- The length that the IP header gives the packet. -/
def ipTotal : IpAddr → Nat
  | .v4 _ => (be16 (byte packet 2) (byte packet 3)).toNat
  | .v6 _ => 40 + (be16 (byte packet 4) (byte packet 5)).toNat

/-- What the segment at `ihl` takes of its sender's sequence space. -/
def segLen : Nat :=
  let ihl := info.transportOffset
  let dataOff := (byte packet (ihl + 12) >>> 4).toNat * 4
  let flags := byte packet (ihl + 13)
  (ipTotal packet info.srcIp - (ihl + dataOff)) + (if flags &&& tcpSyn ≠ 0 then 1 else 0) +
    (if flags &&& tcpFin ≠ 0 then 1 else 0)

/-- A TCP header without options, window 0. -/
def tcpHeader (srcPort dstPort : UInt16) (seq ack : UInt32) (flags : UInt8) (check : UInt16) :
    Bytes :=
  beBytes 2 srcPort.toNat ++ beBytes 2 dstPort.toNat ++ beBytes 4 seq.toNat ++
    beBytes 4 ack.toNat ++ [0x50, flags, 0, 0] ++ beBytes 2 check.toNat ++ [0, 0]

def buildTcpRst : Option Bytes :=
  if info.tcpFlags &&& tcpRst ≠ 0 then none
  else
    let ihl := info.transportOffset
    if packet.length < ihl + 20 then none
    else
      let segSeq := be32 (byte packet (ihl + 4)) (byte packet (ihl + 5)) (byte packet (ihl + 6))
        (byte packet (ihl + 7))
      let segAck := be32 (byte packet (ihl + 8)) (byte packet (ihl + 9)) (byte packet (ihl + 10))
        (byte packet (ihl + 11))
      let flags := byte packet (ihl + 13)
      let (rstSeq, rstAck, rstFlags) : UInt32 × UInt32 × UInt8 :=
        if flags &&& tcpAck ≠ 0 then (segAck, 0, tcpRst)
        else (0, segSeq + UInt32.ofNat (segLen packet info), tcpRst ||| tcpAck)
      let seg := tcpHeader info.dstPort info.srcPort rstSeq rstAck rstFlags
      match info.dstIp, info.srcIp with
      | .v4 src, .v4 dst => some (wrapIpv4 src dst protoTcp (seg (tcpChecksumV4 src dst (seg 0))))
      | .v6 src, .v6 dst =>
        some (wrapIpv6 src dst protoTcp (seg (icmpv6LikeChecksum src dst protoTcp (seg 0))))
      | _, _ => none

/-! ## ICMP errors -/

/-- Type, code, checksum and four bytes of rest, then the quoted packet. -/
def icmpMessage (icmpType code : UInt8) (rest quote : Bytes) (check : UInt16) : Bytes :=
  [icmpType, code] ++ beBytes 2 check.toNat ++ rest ++ quote

def icmpv4Reply (src dst : Ipv4Addr) (msg : UInt16 → Bytes) : Bytes :=
  wrapIpv4 src dst protoIcmpv4 (msg (icmpv4Checksum (msg 0)))

def icmpv6Reply (src dst : Ipv6Addr) (msg : UInt16 → Bytes) : Bytes :=
  wrapIpv6 src dst protoIcmpv6 (msg (icmpv6LikeChecksum src dst protoIcmpv6 (msg 0)))

/-- The quote of an IPv4 packet: its header and eight bytes. -/
def quoteV4 : Bytes := packet.take (info.transportOffset + 8)

/-- The quote of an IPv6 packet: what fits the smallest MTU. -/
def quoteV6 : Bytes := packet.take (mtu - 40 - 8)

def buildIcmpUnreachable : Option Bytes :=
  let udp := info.protocol = 17
  match info.dstIp, info.srcIp with
  | .v4 src, .v4 dst =>
    some (icmpv4Reply src dst
      (icmpMessage 3 (if udp then 3 else 13) [0, 0, 0, 0] (quoteV4 packet info)))
  | .v6 src, .v6 dst =>
    some (icmpv6Reply src dst (icmpMessage 1 (if udp then 4 else 1) [0, 0, 0, 0] (quoteV6 packet)))
  | _, _ => none

def buildReject : Option Bytes :=
  if isMulticastOrUnspecified info.srcIp then none
  else if isIcmpError info then none
  else if info.protocol = protoTcp then buildTcpRst packet info
  else buildIcmpUnreachable packet info

def buildPacketTooBig (nextMtu : UInt16) : Option Bytes :=
  if isMulticastOrUnspecified info.srcIp || isIcmpError info then none
  else
    match info.dstIp, info.srcIp with
    | .v4 src, .v4 dst =>
      some (icmpv4Reply src dst
        (icmpMessage 3 4 ([0, 0] ++ beBytes 2 nextMtu.toNat) (quoteV4 packet info)))
    | .v6 src, .v6 dst =>
      some (icmpv6Reply src dst (icmpMessage 2 0 (beBytes 4 nextMtu.toNat) (quoteV6 packet)))
    | _, _ => none

end

/-! ## Well-formed packets -/

section

variable (r : Bytes) (info : PacketInfo)

/-- The length field of the IP header gives the packet's length. -/
def LengthChecks : Prop := ipTotal r info.srcIp = r.length

/-- An IPv4 header sums up; an IPv6 header has no checksum. -/
def HeaderChecks : Prop :=
  match info.srcIp with
  | .v4 _ => fold (wordSum (r.take info.transportOffset)) = 0
  | .v6 _ => True

/-- The words that a transport checksum covers: the pseudo-header, except for ICMP over
IPv4, and the transport header with its data. -/
def transportSum : Nat :=
  let seg := r.drop info.transportOffset
  match info.srcIp with
  | .v4 _ =>
    if info.protocol = protoIcmpv4 then wordSum seg
    else wordSum ((r.drop 12).take 8) + info.protocol.toNat + seg.length + wordSum seg
  | .v6 _ => wordSum ((r.drop 8).take 32) + seg.length + info.protocol.toNat + wordSum seg

/-- A packet as a host would accept it. -/
structure WellFormed : Prop where
  parses : parsePacketInfo r = some info
  length : LengthChecks r info
  header : HeaderChecks r info
  transport : fold (transportSum r info) = 0

end

variable {src dst : Ipv6Addr} {rest : Bytes}

section Wrapped

variable {proto : UInt8} {payload : Bytes}

theorem beNat_ipv4Octets (ip : Ipv4Addr) : BitVec.ofNat 32 (beNat (ipv4Octets ip)) = ip := by
  have small : ip.toNat < 256 ^ 4 := ip.isLt
  rw [ipv4Octets, beNat_beBytes, Nat.mod_eq_of_lt small, BitVec.ofNat_toNat, BitVec.setWidth_eq]

theorem beNat_ipv6Octets (ip : Ipv6Addr) : BitVec.ofNat 128 (beNat (ipv6Octets ip)) = ip := by
  have small : ip.toNat < 256 ^ 16 := ip.isLt
  rw [ipv6Octets, beNat_beBytes, Nat.mod_eq_of_lt small, BitVec.ofNat_toNat, BitVec.setWidth_eq]

theorem length_ipv4Octets (ip : Ipv4Addr) : (ipv4Octets ip).length = 4 := beBytes_length _ _

theorem length_ipv6Octets (ip : Ipv6Addr) : (ipv6Octets ip).length = 16 := beBytes_length _ _

section

variable (src dst : Ipv4Addr)

theorem ipv4Header_checks (proto : UInt8) (total : Nat) :
    fold (wordSum (ipv4Header src dst proto total
      (fold (wordSum (ipv4Header src dst proto total 0))))) = 0 := by
  have filled := @fold_fill 10 0 (ipv4Header src dst proto total 0) (by decide)
    (Nat.le_of_ble_eq_true rfl) rfl
  rw [Nat.zero_add, Nat.zero_add] at filled
  exact filled

theorem be16_beBytes_two (n : Nat) (small : n < 2 ^ 16) :
    (be16 (byte (beBytes 2 n) 0) (byte (beBytes 2 n) 1)).toNat = n := by
  have read := be16_beBytes [] [] n
  simp only [List.nil_append, List.append_nil, List.length_nil, Nat.zero_add] at read
  rw [read, UInt16.toNat_ofNat_of_lt' small]

theorem ipVersion_wrapIpv4 (proto : UInt8) (payload : Bytes) :
    ipVersion (wrapIpv4 src dst proto payload) = 4 := by
  have first : byte (wrapIpv4 src dst proto payload) 0 = 0x45 := rfl
  rw [ipVersion, first]
  rfl

theorem drop_wrapIpv4 (proto : UInt8) (payload : Bytes) :
    (wrapIpv4 src dst proto payload).drop 20 = payload := rfl

theorem drop_wrapIpv6 (src dst : Ipv6Addr) (proto : UInt8) (payload : Bytes) :
    (wrapIpv6 src dst proto payload).drop 40 = payload := rfl

/-- What a host reads of a wrapped IPv4 payload. -/
theorem parse_wrapIpv4 (proto : UInt8) (payload : Bytes) :
    parsePacketInfo (wrapIpv4 src dst proto payload) =
      some (packetInfo (wrapIpv4 src dst proto payload) proto 20 (.v4 src) (.v4 dst)) := by
  have first : byte (wrapIpv4 src dst proto payload) 0 = 0x45 := rfl
  have ihl : ipv4Ihl (wrapIpv4 src dst proto payload) = 5 := by rw [ipv4Ihl, first]; rfl
  have flags : byte (wrapIpv4 src dst proto payload) 6 = 0 := rfl
  have offset : byte (wrapIpv4 src dst proto payload) 7 = 0 := rfl
  have whole : ipv4FragWord (wrapIpv4 src dst proto payload) = 0 := by
    rw [ipv4FragWord, flags, offset]
    decide
  have protocol : byte (wrapIpv4 src dst proto payload) 9 = proto := rfl
  have srcAt : ipv4At (wrapIpv4 src dst proto payload) 12 = src := beNat_ipv4Octets src
  have dstAt : ipv4At (wrapIpv4 src dst proto payload) 16 = dst := beNat_ipv4Octets dst
  have long : 20 ≤ (wrapIpv4 src dst proto payload).length := by
    rw [wrapIpv4, List.length_append]
    exact Nat.le_add_right _ _
  rw [parsePacketInfo_v4 (ipVersion_wrapIpv4 ..), parseIpv4, if_neg (Nat.not_lt.2 long), ihl,
    if_neg (by decide), if_neg (Nat.not_lt.2 long), whole, if_neg (by decide), protocol, srcAt,
    dstAt]

end

theorem wrapIpv4_wellFormed {src dst : Ipv4Addr} (small : 20 + payload.length < 2 ^ 16)
    (checks : fold ((if proto = protoIcmpv4 then 0
      else wordSum (ipv4Octets src) + wordSum (ipv4Octets dst) + proto.toNat + payload.length) +
        wordSum payload) = 0) :
    WellFormed (wrapIpv4 src dst proto payload)
      (packetInfo (wrapIpv4 src dst proto payload) proto 20 (.v4 src) (.v4 dst)) := by
  have len : (wrapIpv4 src dst proto payload).length = 20 + payload.length := List.length_append
  have slice : ((wrapIpv4 src dst proto payload).drop 12).take 8 =
      ipv4Octets src ++ ipv4Octets dst := rfl
  have addresses : wordSum (((wrapIpv4 src dst proto payload).drop 12).take 8) =
      wordSum (ipv4Octets src) + wordSum (ipv4Octets dst) := by
    rw [slice]
    exact wordSum_append _ (by rw [length_ipv4Octets]; decide)
  refine ⟨parse_wrapIpv4 src dst proto payload, ?_, ipv4Header_checks src dst proto _, ?_⟩
  · exact (be16_beBytes_two _ small).trans len.symm
  · have sum : transportSum (wrapIpv4 src dst proto payload) (packetInfo
        (wrapIpv4 src dst proto payload) proto 20 (.v4 src) (.v4 dst)) =
        (if proto = protoIcmpv4 then 0 else wordSum (ipv4Octets src) + wordSum (ipv4Octets dst) +
          proto.toNat + payload.length) + wordSum payload := by
      simp only [transportSum, packetInfo, drop_wrapIpv4, addresses]
      split
      · rw [Nat.zero_add]
      · rfl
    rw [sum]
    exact checks

theorem ipv6Upper_wrapIpv6 (src dst : Ipv6Addr) (upper : proto = protoTcp ∨ proto = protoIcmpv6) :
    ipv6UpperLayer (wrapIpv6 src dst proto payload) = some (proto, 40) := by
  rcases upper with rfl | rfl
  · rfl
  · rfl

theorem parse_wrapIpv6 (src dst : Ipv6Addr) (upper : proto = protoTcp ∨ proto = protoIcmpv6)
    (ports : 4 ≤ payload.length) :
    parsePacketInfo (wrapIpv6 src dst proto payload) =
      some (packetInfo (wrapIpv6 src dst proto payload) proto 40 (.v6 src) (.v6 dst)) := by
  have first : byte (wrapIpv6 src dst proto payload) 0 = 0x60 := rfl
  have version : ipVersion (wrapIpv6 src dst proto payload) = 6 := by rw [ipVersion, first]; rfl
  have srcAt : ipv6At (wrapIpv6 src dst proto payload) 8 = src := beNat_ipv6Octets src
  have dstAt : ipv6At (wrapIpv6 src dst proto payload) 24 = dst := beNat_ipv6Octets dst
  have len : (wrapIpv6 src dst proto payload).length = 40 + payload.length := List.length_append
  rw [parsePacketInfo_v6 version, parseIpv6, if_neg (by omega), ipv6Upper_wrapIpv6 src dst upper,
    Option.bind_some, srcAt, dstAt]
  exact if_neg fun short => absurd short.2 (by omega)

theorem wrapIpv6_wellFormed (upper : proto = protoTcp ∨ proto = protoIcmpv6)
    (ports : 4 ≤ payload.length) (small : payload.length < 2 ^ 16)
    (checks : icmpv6LikeChecksum src dst proto payload = 0) :
    WellFormed (wrapIpv6 src dst proto payload)
      (packetInfo (wrapIpv6 src dst proto payload) proto 40 (.v6 src) (.v6 dst)) := by
  have len : (wrapIpv6 src dst proto payload).length = 40 + payload.length := List.length_append
  have slice : ((wrapIpv6 src dst proto payload).drop 8).take 32 =
      ipv6Octets src ++ ipv6Octets dst := rfl
  have addresses : wordSum (((wrapIpv6 src dst proto payload).drop 8).take 32) =
      wordSum (ipv6Octets src) + wordSum (ipv6Octets dst) := by
    rw [slice]
    exact wordSum_append _ (by rw [length_ipv6Octets]; decide)
  refine ⟨parse_wrapIpv6 src dst upper ports, ?_, trivial, ?_⟩
  · exact (congrArg (40 + ·) (be16_beBytes_two _ small)).trans len.symm
  · simp only [transportSum, packetInfo, drop_wrapIpv6, addresses]
    exact checks

end Wrapped

/-! ## The messages -/

theorem tcpHeader_checks (base : Nat) (srcPort dstPort : UInt16) (seq ack : UInt32)
    (flags : UInt8) :
    fold (base + wordSum (tcpHeader srcPort dstPort seq ack flags
      (fold (base + wordSum (tcpHeader srcPort dstPort seq ack flags 0))))) = 0 :=
  @fold_fill 16 base (tcpHeader srcPort dstPort seq ack flags 0) (by decide)
    (Nat.le_of_ble_eq_true rfl) rfl

theorem length_tcpHeader (srcPort dstPort : UInt16) (seq ack : UInt32) (flags : UInt8)
    (check : UInt16) : (tcpHeader srcPort dstPort seq ack flags check).length = 20 := rfl

theorem icmpMessage_checks (base : Nat) (icmpType code : UInt8) (rest quote : Bytes) :
    fold (base + wordSum (icmpMessage icmpType code rest quote
      (fold (base + wordSum (icmpMessage icmpType code rest quote 0))))) = 0 := by
  refine @fold_fill 2 base (icmpMessage icmpType code rest quote 0) (by decide) ?_ rfl
  simp [icmpMessage]

theorem length_icmpMessage (icmpType code : UInt8) (quote : Bytes) (check : UInt16)
    (four : rest.length = 4) :
    (icmpMessage icmpType code rest quote check).length = 8 + quote.length := by
  simp [icmpMessage, four]
  omega

/-- The packet at `i` has this 32-bit number. -/
def read32 (p : Bytes) (i : Nat) : UInt32 :=
  be32 (byte p i) (byte p (i + 1)) (byte p (i + 2)) (byte p (i + 3))

/-- The sequence number that follows a segment: its own, what the declared length of the packet
leaves for data behind the headers, and one each for SYN (bit 1) and FIN (bit 0). -/
def seqAfter (packet : Bytes) (info : PacketInfo) : Nat :=
  let off := info.transportOffset
  let headers := off + 4 * ((byte packet (off + 12)).toNat / 16)
  let flags := (byte packet (off + 13)).toNat
  (read32 packet (off + 4)).toNat + (ipTotal packet info.srcIp - headers) +
    (flags.testBit 1).toNat + (flags.testBit 0).toNat

/-- `reply` resets the segment of `packet` by the rules of RFC 793. -/
structure Resets (packet : Bytes) (info : PacketInfo) (reply : Bytes) (info' : PacketInfo) :
    Prop where
  srcPort : info'.srcPort = info.dstPort
  dstPort : info'.dstPort = info.srcPort
  acked : byte packet (info.transportOffset + 13) &&& 0x10 ≠ 0 →
    read32 reply (info'.transportOffset + 4) = read32 packet (info.transportOffset + 8) ∧
      info'.tcpFlags = 0x04
  unacked : byte packet (info.transportOffset + 13) &&& 0x10 = 0 →
    read32 reply (info'.transportOffset + 4) = 0 ∧
      (read32 reply (info'.transportOffset + 8)).toNat = seqAfter packet info % 2 ^ 32 ∧
      info'.tcpFlags = 0x14

/-- A reply to `packet` that is well formed and is not answered in turn. -/
structure ReplyTo (packet : Bytes) (info : PacketInfo) (reply : Bytes) (info' : PacketInfo) :
    Prop extends WellFormed reply info' where
  src : info'.srcIp = info.dstIp
  dst : info'.dstIp = info.srcIp
  fits : ipVersion reply = 6 → reply.length ≤ 1280
  resets : info'.protocol = 6 → Resets packet info reply info'
  unanswered : buildReject reply info' = none

theorem be16_of_beBytes (x : UInt16) :
    be16 (byte (beBytes 2 x.toNat) 0) (byte (beBytes 2 x.toNat) 1) = x :=
  UInt16.toNat_inj.1 (be16_beBytes_two _ x.toNat_lt)

theorem be32_of_beBytes (x : UInt32) :
    be32 (byte (beBytes 4 x.toNat) 0) (byte (beBytes 4 x.toNat) 1) (byte (beBytes 4 x.toNat) 2)
      (byte (beBytes 4 x.toNat) 3) = x := by
  have value := beNat_beBytes 4 x.toNat
  rw [Nat.mod_eq_of_lt (show x.toNat < 256 ^ 4 from x.toNat_lt)] at value
  exact (congrArg UInt32.ofNat value).trans UInt32.ofNat_toNat

/-- A flag of one bit, as the code tests it. -/
theorem flag_eq_testBit (flags : UInt8) (bit : mask.toNat = 2 ^ i) :
    (if flags &&& mask ≠ 0 then 1 else 0) = (flags.toNat.testBit i).toNat := by
  have zero : flags &&& mask = 0 ↔ flags.toNat.testBit i = false := by
    rw [← UInt8.toNat_inj, UInt8.toNat_and, bit, Nat.and_two_pow]
    simp
  cases set : flags.toNat.testBit i <;> simp [zero, set]

theorem ack_toNat (packet : Bytes) (info : PacketInfo) :
    (read32 packet (info.transportOffset + 4) + UInt32.ofNat (segLen packet info)).toNat =
      seqAfter packet info % 2 ^ 32 := by
  have words : ((byte packet (info.transportOffset + 12) >>> 4).toNat) * 4 =
      4 * ((byte packet (info.transportOffset + 12)).toNat / 16) := by
    rw [UInt8.toNat_shiftRight, Nat.mul_comm, Nat.shiftRight_eq_div_pow]
    rfl
  have taken : (read32 packet (info.transportOffset + 4)).toNat + segLen packet info =
      seqAfter packet info := by
    have syn : tcpSyn.toNat = 2 ^ 1 := rfl
    have fin : tcpFin.toNat = 2 ^ 0 := rfl
    simp only [segLen, seqAfter, words, flag_eq_testBit _ syn, flag_eq_testBit _ fin]
    omega
  rw [UInt32.toNat_add, UInt32.toNat_ofNat', Nat.add_mod_mod, taken]

/-- The forwarder has parsed the packet, as a whole one or as an IPv6 fragment. -/
def Described (packet : Bytes) (info : PacketInfo) : Prop :=
  parsePacketInfo packet = some info ∨ ∃ f, parseIpv6Fragment packet = some f ∧ f.info = info

/-- The transport header of an IPv4 packet comes early. -/
theorem Described.offset_v4 (parsed : Described packet info) (v4 : info.srcIp = .v4 ip) :
    info.transportOffset ≤ 60 := by
  have short : (byte packet 0 &&& 0x0F).toNat ≤ 15 := by
    rw [UInt8.toNat_and]
    exact Nat.and_le_right
  rcases parsed with parsed | ⟨f, fragment, rfl⟩
  · rcases parsePacketInfo_some parsed with ⟨-, parsed⟩ | ⟨-, parsed⟩
    · obtain ⟨-, -, -, -, rfl⟩ := parseIpv4_some parsed
      exact Nat.mul_le_mul_right 4 short
    · obtain ⟨-, chain, -, -, -, rfl⟩ := parseIpv6_some parsed
      cases v4
  · obtain ⟨-, -, chain, header, -, -, -, rfl⟩ := parseIpv6Fragment_some fragment
    cases v4

section Replies

variable {packet reply : Bytes} {info : PacketInfo}

variable {r : Bytes} {check : UInt16}

/-- An ICMP error is not answered. -/
theorem buildReject_icmpError (error : isIcmpError info' = true) : buildReject r info' = none := by
  rw [buildReject, if_pos error]
  split <;> rfl

theorem icmpv4Reply_replyTo {src dst : Ipv4Addr} {code : UInt8} (parsed : Described packet info)
    (sender : info.srcIp = .v4 dst) (target : info.dstIp = .v4 src) (four : rest.length = 4) :
    ∃ info', ReplyTo packet info
      (icmpv4Reply src dst (icmpMessage 3 code rest (quoteV4 packet info))) info' := by
  have quoted : (quoteV4 packet info).length ≤ 68 := by
    have early := parsed.offset_v4 sender
    rw [quoteV4, List.length_take]
    omega
  have checks := icmpMessage_checks 0 3 code rest (quoteV4 packet info)
  rw [Nat.zero_add, Nat.zero_add] at checks
  have formed :
      WellFormed (icmpv4Reply src dst (icmpMessage 3 code rest (quoteV4 packet info))) _ :=
    wrapIpv4_wellFormed (by rw [length_icmpMessage _ _ _ _ four]; omega)
      (by rw [if_pos rfl, Nat.zero_add]; exact checks)
  have version := ipVersion_wrapIpv4 src dst protoIcmpv4 (icmpMessage 3 code rest
    (quoteV4 packet info) (icmpv4Checksum (icmpMessage 3 code rest (quoteV4 packet info) 0)))
  exact ⟨_, formed, target.symm, sender.symm, fun v6 => absurd (version.symm.trans v6) (by decide),
    nofun, buildReject_icmpError rfl⟩

theorem icmpv6Reply_replyTo {icmpType code : UInt8} (sender : info.srcIp = .v6 dst)
    (target : info.dstIp = .v6 src) (four : rest.length = 4) (error : icmpType < 128) :
    ∃ info', ReplyTo packet info
      (icmpv6Reply src dst (icmpMessage icmpType code rest (quoteV6 packet))) info' := by
  have quoted : (quoteV6 packet).length ≤ 1232 := List.length_take_le _ _
  have len : ∀ check, (icmpMessage icmpType code rest (quoteV6 packet) check).length =
      8 + (quoteV6 packet).length := fun check => length_icmpMessage _ _ _ _ four
  have checks := icmpMessage_checks (wordSum (ipv6Octets src) + wordSum (ipv6Octets dst) +
    (8 + (quoteV6 packet).length) + protoIcmpv6.toNat) icmpType code rest (quoteV6 packet)
  have formed : WellFormed
      (icmpv6Reply src dst (icmpMessage icmpType code rest (quoteV6 packet))) _ :=
    wrapIpv6_wellFormed (.inr rfl) (by rw [len]; omega) (by rw [len]; omega)
      (by rw [icmpv6LikeChecksum, icmpv6LikeChecksum, len, len]; exact checks)
  refine ⟨_, formed, target.symm, sender.symm, fun _ => ?_, nofun,
    buildReject_icmpError (decide_eq_true error)⟩
  rw [icmpv6Reply, wrapIpv6, List.length_append, len]
  exact Nat.add_le_add_left (Nat.add_le_add_left quoted 8) 40

/-- A reset is not answered. -/
theorem buildReject_rst (tcp : info'.protocol = protoTcp) (rst : info'.tcpFlags &&& tcpRst ≠ 0) :
    buildReject r info' = none := by
  have quiet : isIcmpError info' = false := by
    rw [isIcmpError, tcp]
    rfl
  rw [buildReject, quiet, if_pos tcp, buildTcpRst, if_pos rst]
  split <;> rfl

/-- Sequence number, acknowledgement and flags of the reset that a segment calls for. -/
inductive RstFields (packet : Bytes) (info : PacketInfo) : UInt32 → UInt32 → UInt8 → Prop
  | acked (ack : byte packet (info.transportOffset + 13) &&& tcpAck ≠ 0) :
      RstFields packet info (read32 packet (info.transportOffset + 8)) 0 tcpRst
  | unacked (unacked : byte packet (info.transportOffset + 13) &&& tcpAck = 0) :
      RstFields packet info 0
        (read32 packet (info.transportOffset + 4) + UInt32.ofNat (segLen packet info))
        (tcpRst ||| tcpAck)

theorem buildTcpRst_some (built : buildTcpRst packet info = some reply) :
    ∃ seq ack flags, RstFields packet info seq ack flags ∧
      ((∃ src dst, info.dstIp = .v4 src ∧ info.srcIp = .v4 dst ∧
        reply = wrapIpv4 src dst protoTcp (tcpHeader info.dstPort info.srcPort seq ack flags
          (tcpChecksumV4 src dst (tcpHeader info.dstPort info.srcPort seq ack flags 0)))) ∨
      ∃ src dst, info.dstIp = .v6 src ∧ info.srcIp = .v6 dst ∧
        reply = wrapIpv6 src dst protoTcp (tcpHeader info.dstPort info.srcPort seq ack flags
          (icmpv6LikeChecksum src dst protoTcp
            (tcpHeader info.dstPort info.srcPort seq ack flags 0)))) := by
  unfold buildTcpRst at built
  split at built
  · cases built
  dsimp only at built
  split at built
  · cases built
  -- the fields are chosen before the addresses are looked at
  by_cases ack : byte packet (info.transportOffset + 13) &&& tcpAck ≠ 0
  case' pos =>
    refine ⟨_, _, _, .acked ack, ?_⟩
    rw [if_pos ack] at built
  case' neg =>
    refine ⟨_, _, _, .unacked (not_not.1 ack), ?_⟩
    rw [if_neg ack] at built
  all_goals
    split at built
    · next src dst target sender =>
      exact .inl ⟨src, dst, target, sender, (Option.some.inj built).symm⟩
    · next src dst target sender =>
      exact .inr ⟨src, dst, target, sender, (Option.some.inj built).symm⟩
    · cases built

variable {seq ack : UInt32} {flags : UInt8}

section

variable (fields : RstFields packet info seq ack flags)

include fields

theorem rst_of_fields : flags &&& tcpRst ≠ 0 := by
  cases fields with
  | acked | unacked => decide

variable {seg : Bytes} (header : seg = tcpHeader info.dstPort info.srcPort seq ack flags check)

include header

/-- What a host reads of a reset. -/
theorem resets_of_fields {off : Nat} {src dst : IpAddr} (segment : r.drop off = seg) :
    Resets packet info r (packetInfo r protoTcp off src dst) := by
  have len : off + 20 ≤ r.length := by
    have := congrArg List.length segment
    rw [List.length_drop, header, length_tcpHeader] at this
    omega
  have read : ∀ i, byte r (off + i) = byte seg i := by
    intro i
    rw [← segment]
    exact byte_eq_of_getElem? List.getElem?_drop.symm
  have word : ∀ i, read32 r (off + i) = read32 seg i := by
    intro i
    simp only [read32, Nat.add_assoc, read]
  subst header
  have srcPort : port r protoTcp off 0 = info.dstPort := by
    rw [port, if_neg (by decide), u16OrZero, if_pos (by omega), Nat.add_assoc, read, read]
    exact be16_of_beBytes info.dstPort
  have dstPort : port r protoTcp off 2 = info.srcPort := by
    rw [port, if_neg (by decide), u16OrZero, if_pos (by omega), Nat.add_assoc, read, read]
    exact be16_of_beBytes info.srcPort
  have flagged : tcpFlags r protoTcp off = flags := by
    rw [tcpFlags, if_pos (by decide), ← List.getD_eq_getElem?_getD]
    exact read 13
  have seqAt : read32 r (off + 4) = seq := (word 4).trans (be32_of_beBytes seq)
  have ackAt : read32 r (off + 8) = ack := (word 8).trans (be32_of_beBytes ack)
  cases fields with
  | acked acked =>
    exact ⟨srcPort, dstPort, fun _ => ⟨seqAt, flagged⟩, fun none => absurd none acked⟩
  | unacked unacked =>
    exact ⟨srcPort, dstPort, fun some => absurd unacked some,
      fun _ => ⟨seqAt, ackAt ▸ ack_toNat packet info, flagged⟩⟩

theorem rstV4_replyTo {src dst : Ipv4Addr} (target : info.dstIp = .v4 src)
    (sender : info.srcIp = .v4 dst)
    (checks : fold (wordSum (ipv4Octets src) + wordSum (ipv4Octets dst) + protoTcp.toNat + 20 +
      wordSum seg) = 0) :
    ∃ info', ReplyTo packet info (wrapIpv4 src dst protoTcp seg) info' := by
  have len : seg.length = 20 := header ▸ length_tcpHeader ..
  have formed : WellFormed (wrapIpv4 src dst protoTcp seg) _ :=
    wrapIpv4_wellFormed (by rw [len]; decide) (by rw [if_neg (by decide), len]; exact checks)
  have version := ipVersion_wrapIpv4 src dst protoTcp seg
  exact ⟨_, formed, target.symm, sender.symm, fun v6 => absurd (version.symm.trans v6) (by decide),
    fun _ => resets_of_fields fields header (drop_wrapIpv4 ..),
    buildReject_rst rfl (header ▸ rst_of_fields fields)⟩

theorem rstV6_replyTo (target : info.dstIp = .v6 src) (sender : info.srcIp = .v6 dst)
    (checks : icmpv6LikeChecksum src dst protoTcp seg = 0) :
    ∃ info', ReplyTo packet info (wrapIpv6 src dst protoTcp seg) info' := by
  have len : seg.length = 20 := header ▸ length_tcpHeader ..
  have formed : WellFormed (wrapIpv6 src dst protoTcp seg) _ :=
    wrapIpv6_wellFormed (.inl rfl) (by rw [len]; decide) (by rw [len]; decide) checks
  refine ⟨_, formed, target.symm, sender.symm, fun _ => ?_,
    fun _ => resets_of_fields fields header (drop_wrapIpv6 ..),
    buildReject_rst rfl (header ▸ rst_of_fields fields)⟩
  rw [wrapIpv6, List.length_append, len]
  exact Nat.le_of_ble_eq_true rfl

end

theorem tcpRst_replyTo (built : buildTcpRst packet info = some reply) :
    ∃ info', ReplyTo packet info reply info' := by
  obtain ⟨seq, ack, flags, fields, wrapped⟩ := buildTcpRst_some built
  rcases wrapped with ⟨src, dst, target, sender, rfl⟩ | ⟨src, dst, target, sender, rfl⟩
  · exact rstV4_replyTo fields rfl target sender (tcpHeader_checks _ _ _ _ _ _)
  · exact rstV6_replyTo fields rfl target sender (tcpHeader_checks _ _ _ _ _ _)

variable (parsed : Described packet info)

include parsed

theorem icmpError_replyTo
    (built : buildIcmpUnreachable packet info = some reply ∨
      ∃ nextMtu, buildPacketTooBig packet info nextMtu = some reply) :
    ∃ info', ReplyTo packet info reply info' := by
  rcases built with built | ⟨nextMtu, built⟩
  case' inl =>
    unfold buildIcmpUnreachable at built
    dsimp only at built
  case' inr =>
    unfold buildPacketTooBig at built
    split at built
    · cases built
  all_goals
    split at built
    · next src dst target sender =>
      cases built
      exact icmpv4Reply_replyTo parsed sender target rfl
    · next src dst target sender =>
      cases built
      exact icmpv6Reply_replyTo sender target rfl (by decide)
    · cases built

theorem reject_replyTo (built : buildReject packet info = some reply) :
    ∃ info', ReplyTo packet info reply info' := by
  unfold buildReject at built
  split at built
  · cases built
  split at built
  · cases built
  · split at built
    · exact tcpRst_replyTo built
    · exact icmpError_replyTo parsed (.inl built)

end Replies

/-- Every reply to a packet that the forwarder has parsed is well formed, swaps its
addresses, fits and is not answered; and neither is an ICMP error or a reset. -/
theorem reply_wellFormed {packet : Bytes} {info : PacketInfo} (parsed : Described packet info) :
    (∀ reply, (buildReject packet info = some reply ∨
        ∃ nextMtu, buildPacketTooBig packet info nextMtu = some reply) →
      ∃ info', ReplyTo packet info reply info') ∧
    ((info.protocol = 1 ∧ info.icmpType ∈ [3, 4, 5, 11, 12] ∨
        info.protocol = 58 ∧ info.icmpType < 128 ∨
        info.protocol = 6 ∧ info.tcpFlags &&& 0x04 ≠ 0) →
      buildReject packet info = none) := by
  constructor
  · rintro reply (built | built)
    · exact reject_replyTo parsed built
    · exact icmpError_replyTo parsed (.inr built)
  · rintro (⟨icmp, error⟩ | ⟨icmp, error⟩ | ⟨tcp, rst⟩)
    · refine buildReject_icmpError ?_
      rw [isIcmpError, icmp]
      exact decide_eq_true error
    · refine buildReject_icmpError ?_
      rw [isIcmpError, icmp]
      exact decide_eq_true error
    · exact buildReject_rst tcp rst

/-- A connection attempt from port 5000 to port 22. -/
def sshSyn : Bytes := wrapIpv6 1 2 protoTcp (tcpHeader 5000 22 7 0 tcpSyn 0)

def sshSynInfo : PacketInfo := packetInfo sshSyn protoTcp 40 (.v6 1) (.v6 2)

theorem reply_wellFormed_syn :
    ∃ reply info', buildReject sshSyn sshSynInfo = some reply ∧
      ReplyTo sshSyn sshSynInfo reply info' := by
  have parsed : Described sshSyn sshSynInfo :=
    .inl (parse_wrapIpv6 1 2 (.inl rfl) (Nat.le_of_ble_eq_true rfl))
  have answered : (buildReject sshSyn sshSynInfo).isSome := by decide +kernel
  obtain ⟨reply, built⟩ := Option.isSome_iff_exists.1 answered
  obtain ⟨info', replies⟩ := (reply_wellFormed parsed).1 reply (.inl built)
  exact ⟨reply, info', built, replies⟩

end Rayfish
