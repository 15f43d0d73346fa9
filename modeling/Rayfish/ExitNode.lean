import Rayfish.Addr

/-!
# Exit nodes

The gateway's allow policy, the client's selection and the context the inbound
data path reads from both (`exit_node.rs`).
-/

namespace Rayfish

/-- An IPv4 network directly attached to the gateway; the reader of the host's
interfaces keeps only lengths from 1 to 32. -/
structure Ipv4Prefix where
  addr : Ipv4Addr
  len : Nat
  valid : 1 ≤ len ∧ len ≤ 32

def Ipv4Prefix.contains (net : Ipv4Prefix) (ip : Ipv4Addr) : Bool :=
  let mask := BitVec.allOnes 32 <<< (32 - net.len)
  ip &&& mask == net.addr &&& mask

structure Ipv6Prefix where
  addr : Ipv6Addr
  len : UInt8

def Ipv6Prefix.contains (net : Ipv6Prefix) (ip : Ipv6Addr) : Bool :=
  if net.len = 0 ∨ net.len > 128 then false
  else
    let shift := 128 - net.len.toNat
    net.addr >>> shift == ip >>> shift

/-- Who may route out through us on one network. -/
structure Allow where
  any : Bool
  users : List EndpointId

structure ExitServer where
  nets : String → Option Allow
  /-- The gateway's own addresses, refused as transit destinations. -/
  selfAddrs : List IpAddr
  onLink : List Ipv6Prefix
  onLinkV4 : List Ipv4Prefix

namespace ExitServer

def allows (server : ExitServer) (network : String) (user : EndpointId) : Bool :=
  (server.nets network).any fun allow => allow.any || allow.users.contains user

def isSelfAddr (server : ExitServer) (dst : IpAddr) : Bool := server.selfAddrs.contains dst

def isOnLink (server : ExitServer) : IpAddr → Bool
  | .v4 ip => server.onLinkV4.any (·.contains ip)
  | .v6 ip => server.onLink.any (·.contains ip)

end ExitServer

inductive ExitFamilies where
  | unknown
  | dual
  | v4
  | v6
  | neither
  deriving DecidableEq, Repr

def ExitFamilies.carriesV4 : ExitFamilies → Bool
  | .dual | .v4 => true
  | _ => false

/-- The resolved exit peer for the client role. -/
structure ExitSelection where
  peerUser : EndpointId
  ipv6 : Ipv6Addr
  carries : ExitFamilies

structure ExitClient where
  selection : Option ExitSelection

def ExitClient.isReturnFrom (client : ExitClient) (peerUser : EndpointId) (peerV6 : Ipv6Addr) :
    Bool :=
  client.selection.any fun s => s.peerUser == peerUser || s.ipv6 == peerV6

structure ExitContext where
  server : ExitServer
  client : ExitClient
  myV6 : Ipv6Addr

/-- The address IPv4 exit clients use on the mesh: 192.0.0.2. -/
def wireClientAddr : Ipv4Addr := 0xc0000002

/-- The address an IPv4 exit client's TUN holds: 10.64.0.2. -/
def localClientAddr : Ipv4Addr := 0x0a400002

end Rayfish
