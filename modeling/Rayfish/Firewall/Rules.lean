import Rayfish.Firewall.Packet

/-!
# Firewall rules

The rule list, the defaults and the first-match scan of `firewall.rs`.
-/

namespace Rayfish

inductive Direction where
  | incoming
  | outgoing
  deriving DecidableEq, Repr

inductive Action where
  | allow
  | deny
  deriving DecidableEq, Repr

inductive Protocol where
  | tcp
  | udp
  | icmp
  | any
  deriving DecidableEq, Repr

inductive PeerFilter where
  | any
  | identity (id : EndpointId)
  | except (hostnames : List String) (identities : List EndpointId)
  deriving DecidableEq, Repr

structure PortRange where
  start : UInt16
  stop : UInt16
  deriving DecidableEq, Repr

def PortRange.contains (range : PortRange) (port : UInt16) : Bool :=
  range.start ≤ port && port ≤ range.stop

/-- Where a rule came from. -/
inductive RuleOrigin where
  | local
  | network (name : String)
  | ssh
  deriving DecidableEq, Repr

structure FirewallRule where
  direction : Direction
  action : Action
  protocol : Protocol
  port : Option PortRange
  peer : PeerFilter
  /-- Restrict the rule to peers sharing this network. -/
  network : Option String
  origin : RuleOrigin
  deriving DecidableEq, Repr

structure FirewallConfig where
  defaultInbound : Action
  defaultOutbound : Action
  /-- Denied packets get a synthetic reply. -/
  reject : Bool
  /-- The kill switch: every packet is allowed. -/
  disabled : Bool
  rules : List FirewallRule
  deriving DecidableEq, Repr

def protocolMatches (filter : Protocol) (ipProto : UInt8) : Bool :=
  match filter with
  | .any => true
  | .tcp => ipProto == 6
  | .udp => ipProto == 17
  | .icmp => ipProto == 1 || ipProto == 58

def PeerFilter.admits (filter : PeerFilter) (peer : EndpointId) : Bool :=
  match filter with
  | .any => true
  | .identity id => id == peer
  | .except _ identities => !identities.contains peer

/-- The checks of one iteration of the rule scan. -/
def FirewallRule.matches (rule : FirewallRule) (direction : Direction) (protocol : UInt8)
    (dstPort : UInt16) (peer : EndpointId) (sharesNetwork : String → Bool) : Bool :=
  rule.direction == direction && protocolMatches rule.protocol protocol &&
    rule.port.all (·.contains dstPort) && rule.peer.admits peer && rule.network.all sharesNetwork

variable (config : FirewallConfig)

/-- The first matching rule. -/
def matchRule (direction : Direction) (protocol : UInt8)
    (dstPort : UInt16) (peer : EndpointId) (sharesNetwork : String → Bool) :
    Option FirewallRule :=
  config.rules.find? (·.matches direction protocol dstPort peer sharesNetwork)

def defaultFor : Direction → Action
  | .outgoing => config.defaultOutbound
  | .incoming => config.defaultInbound

/-- The auto-seeded rule that opens the mesh SSH port at the packet layer. -/
def sshPassthroughRule (port : UInt16) : FirewallRule where
  direction := .incoming
  action := .allow
  protocol := .tcp
  port := some ⟨port, port⟩
  peer := .any
  network := none
  origin := .ssh

def setSshPassthrough (enabled : Bool) (port : UInt16) : FirewallConfig :=
  let rules := config.rules.filter fun rule => rule.origin != .ssh
  { config with rules := if enabled then sshPassthroughRule port :: rules else rules }

end Rayfish
