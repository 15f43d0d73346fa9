import Rayfish.Firewall.ConntrackRuns

/-!
# What `ray firewall test` predicts

`explain` answers how a packet would be decided, from the rules and defaults alone
(`firewall.rs`); `evaluatePacket` decides it and consults the flow table. They give the same
action, but for a packet that `explain` flags as possible return traffic and that the flow
table admits (`explain_predicts`). The table admits a packet of an active flow unless it is a
SYN on a flow that is closing.
-/

namespace Rayfish

inductive DecidedBy where
  | disabled
  | rule (index : Nat) (rule : FirewallRule)
  | default

structure Verdict where
  action : Action
  decidedBy : DecidedBy
  /-- Denied, and the sender is told. -/
  reject : Bool
  /-- Denied by the inbound default, which conntrack lifts for return traffic. -/
  returnTraffic : Bool

section

variable (config : FirewallConfig)

/-- The SSH port is 22, and the one that is registered. -/
def FirewallConfig.rejectsDenied (sshPort : UInt16) (info : PacketInfo) : Bool :=
  config.reject || (info.protocol == 6 && (info.dstPort == 22 || info.dstPort == sshPort))

/-- The rule scan, with the place of the rule in the config. -/
def matchRuleAt (direction : Direction) (protocol : UInt8)
    (dstPort : UInt16) (peer : EndpointId) (sharesNetwork : String → Bool) :
    Option (Nat × FirewallRule) :=
  (config.rules.zipIdx.find? fun entry =>
    entry.1.matches direction protocol dstPort peer sharesNetwork).map Prod.swap

def explain (sshPort : UInt16) (direction : Direction)
    (info : PacketInfo) (peer : EndpointId) (sharesNetwork : String → Bool) : Verdict :=
  if config.disabled then ⟨.allow, .disabled, false, false⟩
  else
    match matchRuleAt config direction info.protocol info.dstPort peer sharesNetwork with
    | some (index, rule) =>
      ⟨rule.action, .rule index rule,
        config.rejectsDenied sshPort info && rule.action == .deny, false⟩
    | none =>
      let action := defaultFor config direction
      ⟨action, .default, config.rejectsDenied sshPort info && action == .deny,
        direction == .incoming && action == .deny && conntrackEligible info⟩

end

/-- The rule at this place is the first one that matches. -/
structure FirstMatch (config : FirewallConfig) (direction : Direction) (info : PacketInfo)
    (peer : EndpointId) (sharesNetwork : String → Bool) (index : Nat) (rule : FirewallRule) :
    Prop where
  there : config.rules[index]? = some rule
  selects : rule.matches direction info.protocol info.dstPort peer sharesNetwork = true
  first : ∀ place earlier, place < index → config.rules[place]? = some earlier →
    earlier.matches direction info.protocol info.dstPort peer sharesNetwork = false

/-- The flow table has an active entry for the packet, and it is no SYN on a flow that is
closing. -/
def AnswersFlow (table : Conntrack) (info : PacketInfo) (now : Nat) : Prop :=
  ∃ state, table (Flow.of .incoming info) = some state ∧
    state.isActive info.protocol now = true ∧ (state.isClosing → carriesSyn info → isRst info)

/-! ## The rule scan -/

section

variable {config : FirewallConfig} {direction : Direction} {info : PacketInfo}
  {peer : EndpointId} {sharesNetwork : String → Bool} {index : Nat} {rule : FirewallRule}

/-- The scan with places finds the rule the scan finds. -/
theorem matchRule_eq : matchRule config direction info.protocol info.dstPort peer sharesNetwork =
    (matchRuleAt config direction info.protocol info.dstPort peer sharesNetwork).map Prod.snd := by
  unfold matchRule matchRuleAt
  generalize 0 = start
  induction config.rules generalizing start with
  | nil => rfl
  | cons rule rest ih =>
    rw [List.zipIdx_cons, List.find?_cons, List.find?_cons]
    cases rule.matches direction info.protocol info.dstPort peer sharesNetwork with
    | true => rfl
    | false => exact ih (start + 1)

theorem firstMatch_of_matchRuleAt
    (found : matchRuleAt config direction info.protocol info.dstPort peer sharesNetwork =
      some (index, rule)) : FirstMatch config direction info peer sharesNetwork index rule := by
  obtain ⟨⟨_, _⟩, at_rule, swapped⟩ := Option.map_eq_some_iff.mp found
  cases swapped
  obtain ⟨selects, place, inside, is, earlier⟩ := List.find?_eq_some_iff_getElem.mp at_rule
  obtain ⟨rfl, rfl⟩ := Prod.mk.inj (is.symm.trans (List.getElem_zipIdx _))
  rw [List.length_zipIdx] at inside
  refine ⟨by rw [Nat.zero_add, List.getElem?_eq_getElem inside], selects, ?_⟩
  intro place' rule' before at_place
  obtain ⟨inside', rfl⟩ := List.getElem?_eq_some_iff.mp at_place
  have skipped := earlier place' (by omega)
  rwa [List.getElem_zipIdx, Bool.not_eq_true'] at skipped

/-! ## The flow table -/

/-- Which inbound packets the flow table admits. -/
theorem trackPacket_incoming_iff (eligible : conntrackEligible info = true) :
    (trackPacket table .incoming info now).1 = true ↔ AnswersFlow table info now := by
  constructor
  · intro ok
    obtain ⟨state, found, active, -, closing⟩ := tracked_incoming ok
    exact ⟨state, found, active, closing⟩
  · rintro ⟨state, found, active, closing⟩
    have admitted : ¬((Direction.incoming = .incoming ∧ ¬conntrackEligible info) ∨
        (Direction.incoming = .outgoing ∧ isIcmp info.protocol ∧
          ¬isIcmpEchoRequest info.protocol info.icmpType)) := by
      rintro (⟨-, not⟩ | ⟨out, -⟩)
      · exact not eligible
      · cases out
    rw [trackPacket, if_neg admitted, found]
    dsimp only
    by_cases rst : isRst info
    · rw [if_pos rst, active]
      rfl
    · rw [if_neg rst, if_neg, if_neg fun idle => idle.1 active]
      rintro ⟨-, idle | ⟨isClosing, syn⟩⟩
      · exact idle active
      · exact rst (closing isClosing syn)

end

/-- **`explain` predicts the decision.** The two agree on the action, except that a packet
`explain` flags as possible return traffic is allowed if the flow table admits it. A rule that
`explain` names is the first that matches, and the packet is decided by it. -/
theorem explain_predicts (fw : Firewall) (sshPort : UInt16) (direction : Direction)
    (info : PacketInfo) (peer : EndpointId) (sharesNetwork : String → Bool) (now : Nat) :
    let verdict := explain fw.config sshPort direction info peer sharesNetwork
    let decided := (evaluatePacket fw direction info peer sharesNetwork now).1
    (verdict.returnTraffic = true ∧ AnswersFlow fw.conntrack info now → decided = .allow) ∧
      (¬(verdict.returnTraffic = true ∧ AnswersFlow fw.conntrack info now) →
        decided = verdict.action) ∧
      ∀ index rule, verdict.decidedBy = .rule index rule →
        FirstMatch fw.config direction info peer sharesNetwork index rule ∧
        matchRule fw.config direction info.protocol info.dstPort peer sharesNetwork = some rule ∧
        decided = rule.action := by
  unfold explain evaluatePacket
  by_cases off : fw.config.disabled = true
  · rw [if_pos off, if_pos off]
    refine ⟨fun answered => absurd answered.1 Bool.false_ne_true, fun _ => rfl, ?_⟩
    intro index rule is
    cases is
  rw [if_neg off, if_neg off, matchRule_eq]
  cases found : matchRuleAt fw.config direction info.protocol info.dstPort peer sharesNetwork with
  | some at_rule =>
    obtain ⟨index, rule⟩ := at_rule
    refine ⟨?_, fun _ => ?_, fun index' rule' is => ?_⟩
    · rintro ⟨flagged, -⟩
      cases flagged
    · dsimp only [Option.map_some]
      cases rule.action <;> rfl
    · cases is
      refine ⟨firstMatch_of_matchRuleAt found, rfl, ?_⟩
      dsimp only [Option.map_some]
      cases rule.action <;> rfl
  | none =>
    refine ⟨?_, ?_, fun index rule is => by cases is⟩
    · rintro ⟨flagged, answers⟩
      simp only [Bool.and_eq_true, beq_iff_eq] at flagged
      obtain ⟨⟨rfl, -⟩, eligible⟩ := flagged
      dsimp only [Option.map_none]
      rw [if_pos eligible, if_pos ((trackPacket_incoming_iff eligible).mpr answers)]
    · intro unlifted
      cases direction with
      | outgoing =>
        cases defaultFor fw.config .outgoing <;> rfl
      | incoming =>
        dsimp only [Option.map_none]
        split
        · next eligible =>
          cases default : defaultFor fw.config .incoming with
          | allow => exact ite_self _
          | deny =>
            refine if_neg fun ok => unlifted ⟨?_, (trackPacket_incoming_iff eligible).mp ok⟩
            rw [default, eligible]
            rfl
        · rfl

/-- A SYN on a connection that both sides have closed: `explain` flags it, its flow has an
active entry, and it is denied. -/
theorem closing_refuses_syn :
    let info := segment .incoming 0x02
    let table := finSent.after.fw.conntrack
    (explain finSent.after.fw.config 22 .incoming info 0 fun _ => false).returnTraffic = true ∧
      (∃ state, table (Flow.of .incoming info) = some state ∧
        state.isActive info.protocol 4 = true) ∧
      (evaluatePacket finSent.after.fw .incoming info 0 (fun _ => false) 4).1 = .deny := by
  refine ⟨by decide, ⟨.closing 3, by decide, by decide⟩, by decide⟩

end Rayfish
