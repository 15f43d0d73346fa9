import Rayfish.Firewall.Rules
import Mathlib.Logic.Function.Basic

/-!
# Connection tracking

The flow table of `firewall.rs` and the stateful evaluation of a packet. The
table is a partial function from flows to their states; `trackPacket` is one
access under the entry guard. `trackPacket_cases` says everything such an access
can do to the flow it names, and that it touches no other.
-/

namespace Rayfish

/-- Instants and durations are numbers of nanoseconds. -/
def secs (n : Nat) : Nat := n * 1000000000

def tcpFlowTimeout : Nat := secs 300

def tcpClosingTimeout : Nat := secs 30

def udpFlowTimeout : Nat := secs 30

/-- A connection keyed by its endpoints; both directions map to one flow. -/
structure Flow where
  proto : UInt8
  localIp : IpAddr
  localPort : UInt16
  peerIp : IpAddr
  peerPort : UInt16
  icmpId : UInt16
  deriving DecidableEq, Repr

/-- The flow a packet belongs to, seen from this host. -/
def Flow.of (direction : Direction) (info : PacketInfo) : Flow :=
  match direction with
  | .outgoing => ⟨info.protocol, info.srcIp, info.srcPort, info.dstIp, info.dstPort, info.icmpId⟩
  | .incoming => ⟨info.protocol, info.dstIp, info.dstPort, info.srcIp, info.srcPort, info.icmpId⟩

inductive FlowState where
  | active (lastSeen : Nat)
  | halfClosed (lastSeen : Nat) (fin : Direction)
  | closing (since : Nat)
  deriving DecidableEq, Repr

namespace FlowState

/-- How long a flow stays established without traffic. -/
def timeout (protocol : UInt8) : FlowState → Nat
  | .active _ | .halfClosed _ _ => if protocol = 6 then tcpFlowTimeout else udpFlowTimeout
  | .closing _ => tcpClosingTimeout

/-- The instant a state's age is counted from. -/
def seen : FlowState → Nat
  | .active lastSeen | .halfClosed lastSeen _ => lastSeen
  | .closing since => since

def isActive (state : FlowState) (protocol : UInt8) (now : Nat) : Bool :=
  now - state.seen < state.timeout protocol

def isClosing : FlowState → Bool
  | .closing _ => true
  | _ => false

def record (state : FlowState) (direction : Direction) (info : PacketInfo) (now : Nat) :
    FlowState :=
  if info.protocol = 6 ∧ direction = .outgoing ∧ info.tcpFlags &&& 0x02 ≠ 0 then
    -- A new handshake can reuse the tuple of a previously closed connection.
    .active now
  else
    let fin := info.protocol = 6 ∧ info.tcpFlags &&& 0x01 ≠ 0
    match state with
    | .active _ => if fin then .halfClosed now direction else .active now
    | .halfClosed _ first => if fin ∧ first ≠ direction then .closing now else .halfClosed now first
    -- Closing traffic must not keep an otherwise closed connection alive.
    | .closing since => .closing since

end FlowState

abbrev Conntrack := Flow → Option FlowState

/-- Of ICMP only an echo reply can be return traffic. -/
def conntrackEligible (info : PacketInfo) : Bool :=
  !isIcmp info.protocol || isIcmpEchoReply info.protocol info.icmpType

def isRst (info : PacketInfo) : Prop := info.protocol = 6 ∧ info.tcpFlags &&& 0x04 ≠ 0

instance (info : PacketInfo) : Decidable (isRst info) := inferInstanceAs (Decidable (_ ∧ _))

def carriesSyn (info : PacketInfo) : Prop := info.tcpFlags &&& 0x02 ≠ 0

instance (info : PacketInfo) : Decidable (carriesSyn info) := inferInstanceAs (Decidable (_ ≠ _))

/-- Admission and update of one flow under its entry guard. The flow is
`Flow.of direction info` at every call, so its protocol is the packet's. -/
def trackPacket (table : Conntrack) (direction : Direction) (info : PacketInfo) (now : Nat) :
    Bool × Conntrack :=
  let flow := Flow.of direction info
  if (direction = .incoming ∧ ¬conntrackEligible info) ∨
      (direction = .outgoing ∧ isIcmp info.protocol ∧
        ¬isIcmpEchoRequest info.protocol info.icmpType) then
    (false, table)
  else
    match table flow with
    | some state =>
      let active := state.isActive info.protocol now
      if isRst info then (direction == .outgoing || active, Function.update table flow none)
      else if direction = .incoming ∧ (¬active ∨ (state.isClosing ∧ carriesSyn info)) then
        (false, table)
      else if ¬active ∧ info.protocol = 6 ∧ info.tcpFlags &&& 0x01 ≠ 0 then (false, table)
      else (true, Function.update table flow (some (state.record direction info now)))
    | none =>
      if direction = .incoming ∨ (info.protocol = 6 ∧ info.tcpFlags &&& 0x05 ≠ 0) then
        (false, table)
      else (true, Function.update table flow (some (.active now)))

structure Firewall where
  config : FirewallConfig
  conntrack : Conntrack

/-- Stateful evaluation of a parsed packet. -/
def evaluatePacket (fw : Firewall) (direction : Direction) (info : PacketInfo)
    (peer : EndpointId) (sharesNetwork : String → Bool) (now : Nat) : Action × Firewall :=
  if fw.config.disabled then (.allow, fw)
  else
    let tracked := trackPacket fw.conntrack direction info now
    match matchRule fw.config direction info.protocol info.dstPort peer sharesNetwork with
    | some rule =>
      -- Explicit rules always win.
      match rule.action with
      | .allow => (.allow, { fw with conntrack := tracked.2 })
      | .deny => (.deny, fw)
    | none =>
      match direction with
      | .outgoing =>
        match defaultFor fw.config .outgoing with
        | .allow => (.allow, { fw with conntrack := tracked.2 })
        | .deny => (.deny, fw)
      | .incoming =>
        if conntrackEligible info then
          (if tracked.1 then .allow else defaultFor fw.config .incoming,
            { fw with conntrack := tracked.2 })
        else (defaultFor fw.config .incoming, fw)

/-- Whether an inbound packet answers a flow this host opened. -/
def admitsReply (fw : Firewall) (info : PacketInfo) (now : Nat) : Bool × Firewall :=
  if fw.config.disabled then (true, fw)
  else
    let tracked := trackPacket fw.conntrack .incoming info now
    (tracked.1, { fw with conntrack := tracked.2 })

/-- The evictor's sweep. -/
def evictIdle (table : Conntrack) (now : Nat) : Conntrack := fun flow =>
  (table flow).filter fun state => state.isActive flow.proto now

/-! ## What one access does -/

/-- Everything an access under the entry guard can do. -/
inductive Tracked (table : Conntrack) (direction : Direction) (info : PacketInfo)
    (now : Nat) : Bool × Conntrack → Prop where
  | untouched : (isRst info → table (Flow.of direction info) = none) →
      Tracked table direction info now (false, table)
  | reset : isRst info → table (Flow.of direction info) = some state →
      Tracked table direction info now
        (direction == .outgoing || state.isActive info.protocol now,
          Function.update table (Flow.of direction info) none)
  | recorded : ¬isRst info → table (Flow.of direction info) = some state →
      (direction = .incoming → conntrackEligible info ∧ state.isActive info.protocol now ∧
        ¬(state.isClosing ∧ carriesSyn info)) →
      Tracked table direction info now
        (true, Function.update table (Flow.of direction info)
          (some (state.record direction info now)))
  | opened : ¬isRst info → direction = .outgoing → table (Flow.of direction info) = none →
      (isIcmp info.protocol → isIcmpEchoRequest info.protocol info.icmpType) →
      Tracked table direction info now
        (true, Function.update table (Flow.of direction info) (some (.active now)))

theorem not_isRst_of_icmp (h : isIcmp info.protocol = true) : ¬isRst info := by
  rintro ⟨tcp, _⟩
  rw [tcp] at h
  exact absurd h (by decide)

theorem flags_rst {flags : UInt8} (h : flags &&& 0x05 = 0) : flags &&& 0x04 = 0 := by
  have : flags &&& 0x04 = (flags &&& 0x05) &&& 0x04 := by
    rw [UInt8.and_assoc]
    rfl
  rw [this, h]
  rfl

theorem trackPacket_cases (table : Conntrack) (direction : Direction) (info : PacketInfo)
    (now : Nat) :
    Tracked table direction info now (trackPacket table direction info now) := by
  unfold trackPacket
  dsimp only
  split
  · next refused =>
    refine .untouched fun rst => absurd rst (not_isRst_of_icmp ?_)
    rcases refused with ⟨_, ineligible⟩ | ⟨_, icmp, _⟩
    · by_contra notIcmp
      exact ineligible (by simp [conntrackEligible, notIcmp])
    · exact icmp
  · next admitted =>
    rw [not_or] at admitted
    split
    · next state found =>
      split
      · next rst => exact .reset rst found
      next notRst =>
      split
      · exact .untouched fun rst => absurd rst notRst
      next fresh =>
      split
      · exact .untouched fun rst => absurd rst notRst
      refine .recorded notRst found fun incoming => ?_
      have eligible : conntrackEligible info = true := by
        by_contra ineligible
        exact admitted.1 ⟨incoming, ineligible⟩
      refine ⟨eligible, ?_, fun reopening => fresh ⟨incoming, .inr reopening⟩⟩
      by_contra idle
      exact fresh ⟨incoming, .inl idle⟩
    · next vacant =>
      split
      · exact .untouched fun _ => vacant
      next outgoing =>
      rw [not_or] at outgoing
      have notRst : ¬isRst info := by
        rintro ⟨tcp, rst⟩
        refine outgoing.2 ⟨tcp, fun clear => rst (flags_rst clear)⟩
      have direction_out : direction = .outgoing := by
        cases direction
        · exact absurd rfl outgoing.1
        · rfl
      refine .opened notRst direction_out vacant fun icmp => ?_
      by_contra notRequest
      exact admitted.2 ⟨direction_out, icmp, notRequest⟩

end Rayfish
