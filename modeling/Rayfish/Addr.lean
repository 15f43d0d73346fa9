import Rayfish.Lib.BigEndian
import Mathlib.Tactic.IntervalCases

/-!
# Addresses and identities

IP addresses as the machine words the source compares them as, the overlay
range `200::/7`, and the addresses an exit node forwards to
(`membership.rs`, `exit_node/policy.rs`).
-/

namespace Rayfish

open Lib

abbrev Ipv4Addr := BitVec 32

abbrev Ipv6Addr := BitVec 128

inductive IpAddr where
  | v4 (ip : Ipv4Addr)
  | v6 (ip : Ipv6Addr)
  deriving DecidableEq, Repr

/-- A device's or user's public key. -/
abbrev EndpointId := BitVec 256

instance EndpointId.lawfulBEq : LawfulBEq EndpointId := inferInstance

/-- `Ipv4Addr::new` on the four octets at `i`. -/
def ipv4At (packet : Bytes) (i : Nat) : Ipv4Addr :=
  BitVec.ofNat 32 (beNat ((packet.drop i).take 4))

/-- `Ipv6Addr::from` on the sixteen octets at `i`. -/
def ipv6At (packet : Bytes) (i : Nat) : Ipv6Addr :=
  BitVec.ofNat 128 (beNat ((packet.drop i).take 16))

/-- `ip.octets()[i]`. -/
def octet (ip : Ipv4Addr) (i : Nat) : BitVec 8 := (ip >>> (24 - 8 * i)).setWidth 8

/-- `ip.segments()[0]`. -/
def segment0 (ip : Ipv6Addr) : BitVec 16 := (ip >>> 112).setWidth 16

/-- The IPv6 range mesh addresses are derived into. -/
def isOverlayIp : IpAddr → Bool
  | .v4 _ => false
  | .v6 ip => segment0 ip &&& 0xfe00 == 0x0200

/-- The mesh address of a device: `0x02` and the first fifteen bytes of the hash
of its identity. -/
def deriveIpv6 (digest : BitVec 120) : Ipv6Addr := (0x02 : BitVec 8) ++ digest

/-- `100.64.0.0/10`, which belongs to whatever other VPN shares the host. -/
def isCgnatRange (ip : Ipv4Addr) : Bool :=
  octet ip 0 == 100 && octet ip 1 &&& 0xC0 == 64

/-! ## What the standard library says about an IPv4 address -/

def isPrivate (ip : Ipv4Addr) : Bool :=
  octet ip 0 == 10 || (octet ip 0 == 172 && octet ip 1 &&& 0xf0 == 16) ||
    (octet ip 0 == 192 && octet ip 1 == 168)

def isDocumentation (ip : Ipv4Addr) : Bool :=
  (octet ip 0 == 192 && octet ip 1 == 0 && octet ip 2 == 2) ||
    (octet ip 0 == 198 && octet ip 1 == 51 && octet ip 2 == 100) ||
    (octet ip 0 == 203 && octet ip 1 == 0 && octet ip 2 == 113)

/-- Whether an exit node may forward to an address. -/
def isTransitable (destination : IpAddr) : Bool :=
  if isOverlayIp destination then false
  else
    match destination with
    | .v4 ip =>
      !isCgnatRange ip &&
        !(isPrivate ip
          || octet ip 0 == 127                                   -- loopback
          || (octet ip 0 == 169 && octet ip 1 == 254)            -- link local
          || octet ip 0 &&& 0xf0 == 0xe0                         -- multicast
          || ip == 0xffffffff                                    -- broadcast
          || ip == 0                                             -- unspecified
          || isDocumentation ip
          || (octet ip 0 == 192 && octet ip 1 == 0 && octet ip 2 == 0)
          || (octet ip 0 == 198 && octet ip 1 &&& 0xfe == 18)
          || octet ip 0 == 0
          || 240 ≤ octet ip 0)
    | .v6 ip =>
      !(ip == 1                                                  -- loopback
        || segment0 ip &&& 0xff00 == 0xff00                      -- multicast
        || ip == 0                                               -- unspecified
        || segment0 ip &&& 0xffc0 == 0xfe80
        || segment0 ip &&& 0xfe00 == 0xfc00)

/-- Transit never reaches an overlay address. -/
theorem not_overlay_of_transitable (h : isTransitable ip = true) : isOverlayIp ip = false := by
  unfold isTransitable at h
  split at h
  · exact absurd h Bool.false_ne_true
  · next overlay => exact Bool.eq_false_iff.mpr overlay

theorem deriveIpv6_overlay (digest : BitVec 120) :
    isOverlayIp (.v6 (deriveIpv6 digest)) = true := by
  have masked : segment0 (deriveIpv6 digest) &&& 0xfe00 = 0x0200 := by
    apply BitVec.eq_of_getLsbD_eq
    intro i hi
    simp only [segment0, deriveIpv6, BitVec.getLsbD_and, BitVec.getLsbD_setWidth,
      BitVec.getLsbD_ushiftRight, BitVec.getLsbD_append]
    interval_cases i <;> simp
  simp only [isOverlayIp, masked]
  rfl

theorem ipv6At_congr (h : (q.drop i).take 16 = (p.drop i).take 16) : ipv6At q i = ipv6At p i := by
  simp only [ipv6At, h]

end Rayfish
