import Rayfish.Addr

/-!
# IP packet classification

The parser of `firewall/packet.rs`: IPv4 headers, the IPv6 extension-header
walk, IPv6 fragments, and the transport fields rule matching and connection
tracking read.
-/

namespace Rayfish

open Lib

structure PacketInfo where
  srcIp : IpAddr
  dstIp : IpAddr
  protocol : UInt8
  srcPort : UInt16
  dstPort : UInt16
  /-- TCP flags byte (0 for non-TCP or truncated TCP header). -/
  tcpFlags : UInt8
  /-- ICMP/ICMPv6 type (0 for non-ICMP or truncated ICMP header). -/
  icmpType : UInt8
  /-- ICMP echo identifier (0 for non-echo ICMP). -/
  icmpId : UInt16
  /-- Byte offset of the transport header. -/
  transportOffset : Nat
  deriving DecidableEq, Repr

/-! ## Transport fields -/

def isIcmp (protocol : UInt8) : Bool := protocol == 1 || protocol == 58

def isIcmpEchoRequest (protocol kind : UInt8) : Bool :=
  (protocol == 1 && kind == 8) || (protocol == 58 && kind == 128)

def isIcmpEchoReply (protocol kind : UInt8) : Bool :=
  (protocol == 1 && kind == 0) || (protocol == 58 && kind == 129)

variable (packet : Bytes) (protocol : UInt8) (headerLen : Nat)

/-- `packet.get(i..i + 2)` read as a big-endian number, 0 when it is cut off. -/
def u16OrZero (i : Nat) : UInt16 :=
  if i + 2 ≤ packet.length then be16 (byte packet i) (byte packet (i + 1)) else 0

def port (headerLen offset : Nat) : UInt16 :=
  if protocol != 6 && protocol != 17 then 0 else u16OrZero packet (headerLen + offset)

def tcpFlags : UInt8 :=
  if protocol == 6 then (packet[headerLen + 13]?).getD 0 else 0

def icmpType : UInt8 :=
  if isIcmp protocol then (packet[headerLen]?).getD 0 else 0

def icmpId : UInt16 :=
  let kind := icmpType packet protocol headerLen
  if !isIcmpEchoRequest protocol kind && !isIcmpEchoReply protocol kind then 0
  else u16OrZero packet (headerLen + 4)

def packetInfo (srcIp dstIp : IpAddr) : PacketInfo where
  srcIp := srcIp
  dstIp := dstIp
  protocol := protocol
  srcPort := port packet protocol headerLen 0
  dstPort := port packet protocol headerLen 2
  tcpFlags := tcpFlags packet protocol headerLen
  icmpType := icmpType packet protocol headerLen
  icmpId := icmpId packet protocol headerLen
  transportOffset := headerLen

/-! ## IPv4 -/

/-- The flags and fragment-offset word of an IPv4 header. -/
def ipv4FragWord : UInt16 := be16 (byte packet 6) (byte packet 7)

/-- `(packet[0] & 0x0F) as usize`. -/
def ipv4Ihl : Nat := (byte packet 0 &&& 0x0F).toNat

def parseIpv4 : Option PacketInfo :=
  if packet.length < 20 then none
  else if ipv4Ihl packet < 5 then none
  else if packet.length < ipv4Ihl packet * 4 then none
  else if ipv4FragWord packet &&& 0x1FFF != 0 then none
  else
    some (packetInfo packet (byte packet 9) (ipv4Ihl packet * 4)
      (.v4 (ipv4At packet 12)) (.v4 (ipv4At packet 16)))

/-! ## The IPv6 extension-header walk -/

def ipv6TlvExtHeaders : List UInt8 := [0, 43, 60, 135, 139, 140]

def ipv6Ah : UInt8 := 51

def ipv6Fragment : UInt8 := 44

def maxHeaders : Nat := 8

structure FragmentHeader where
  /-- Fragment offset in 8-octet units; 0 on the first fragment. -/
  offset : UInt16
  id : UInt32
  deriving DecidableEq, Repr

/-- Where an extension-header walk ended. -/
structure Ipv6Chain where
  /-- The upper-layer protocol, or `ipv6Fragment` for a non-first fragment. -/
  protocol : UInt8
  /-- Offset of the upper-layer header, or of a non-first fragment's payload. -/
  offset : Nat
  fragment : Option FragmentHeader
  deriving DecidableEq, Repr

/-- What one header of the chain does to the walk. -/
inductive ChainStep where
  | stop (chain : Ipv6Chain)
  | skip (len : Nat) (fragment : Option FragmentHeader)
  deriving DecidableEq, Repr

/-- `packet.get(off..off + 8)?` read as a Fragment header. -/
def fragmentHeader (off : Nat) : Option FragmentHeader :=
  if off + 8 ≤ packet.length then
    some
      { offset := be16 (byte packet (off + 2)) (byte packet (off + 3)) >>> 3
        id := be32 (byte packet (off + 4)) (byte packet (off + 5))
          (byte packet (off + 6)) (byte packet (off + 7)) }
  else none

/-- The body of the walk's loop for the header `next` at `off`. -/
def chainStep (next : UInt8) (off : Nat) (fragment : Option FragmentHeader) : Option ChainStep :=
  if next = ipv6Fragment then
    if fragment.isSome then none
    else
      (fragmentHeader packet off).map fun header =>
        if header.offset ≠ 0 then .stop ⟨ipv6Fragment, off + 8, some header⟩
        else .skip 8 (some header)
  else if next = ipv6Ah then
    (packet[off + 1]?).map fun b => .skip ((b.toNat + 2) * 4) fragment
  else if next ∈ ipv6TlvExtHeaders then
    (packet[off + 1]?).map fun b => .skip ((b.toNat + 1) * 8) fragment
  else some (.stop ⟨next, off, fragment⟩)

/-- The loop of `ipv6_chain`, with the iterations left as its first argument. -/
def ipv6Walk (packet : Bytes) : Nat → UInt8 → Nat → Option FragmentHeader → Option Ipv6Chain
  | 0, _, _, _ => none
  | left + 1, next, off, fragment =>
    match chainStep packet next off fragment with
    | none => none
    | some (.stop chain) => some chain
    | some (.skip len fragment) =>
      match packet[off]? with
      | none => none
      | some next =>
        if off + len ≥ packet.length then none
        else ipv6Walk packet left next (off + len) fragment

def ipv6Chain : Option Ipv6Chain :=
  ipv6Walk packet maxHeaders (byte packet 6) 40 none

/-- The upper-layer protocol and its offset; fragments are refused. -/
def ipv6UpperLayer : Option (UInt8 × Nat) :=
  (ipv6Chain packet).bind fun chain =>
    if chain.fragment.isNone then some (chain.protocol, chain.offset) else none

def parseIpv6 : Option PacketInfo :=
  if packet.length < 40 then none
  else
    (ipv6UpperLayer packet).bind fun (protocol, headerLen) =>
      if (protocol = 6 ∨ protocol = 17) ∧ packet.length < headerLen + 4 then none
      else
        some (packetInfo packet protocol headerLen (.v6 (ipv6At packet 8)) (.v6 (ipv6At packet 24)))

/-- `packet[0] >> 4`. -/
def ipVersion : UInt8 := byte packet 0 >>> 4

/-- A whole packet; the empty string has version 0. -/
def parsePacketInfo : Option PacketInfo :=
  if ipVersion packet = 4 then parseIpv4 packet
  else if ipVersion packet = 6 then parseIpv6 packet
  else none

/-! ## IPv6 fragments -/

/-- Names the fragments of one original IPv6 packet. -/
structure FragmentKey where
  src : Ipv6Addr
  dst : Ipv6Addr
  id : UInt32
  deriving DecidableEq, Repr

structure Ipv6Fragment where
  /-- The upper-layer fields of the first fragment; for a later one only the
  addresses are real. -/
  info : PacketInfo
  key : FragmentKey
  /-- Offset 0: carries the upper-layer header and decides for the rest. -/
  first : Bool
  deriving DecidableEq, Repr

/-- The upper-layer header bytes a first fragment has to hold. -/
def upperHeaderLen (offset : Nat) : Option Nat :=
  if protocol = 6 then (packet[offset + 12]?).map fun b : UInt8 => (b >>> 4).toNat * 4
  else if protocol = 17 then some 8
  else if protocol = 58 then some 8
  else some 0

def carriesUpperHeader (offset : Nat) : Bool :=
  match upperHeaderLen packet protocol offset with
  | none => false
  | some needed =>
    if protocol = 6 ∧ needed < 20 then false else decide (offset + needed ≤ packet.length)

def parseIpv6Fragment : Option Ipv6Fragment :=
  if packet.length < 40 ∨ ipVersion packet ≠ 6 then none
  else
    (ipv6Chain packet).bind fun chain =>
      chain.fragment.bind fun fragment =>
        let first := fragment.offset == 0
        if first && !carriesUpperHeader packet chain.protocol chain.offset then none
        else
          let src := ipv6At packet 8
          let dst := ipv6At packet 24
          some
            { info := packetInfo packet chain.protocol chain.offset (.v6 src) (.v6 dst)
              key := ⟨src, dst, fragment.id⟩
              first := first }

end Rayfish
