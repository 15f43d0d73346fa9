import Rayfish.Lib.Run
import Rayfish.Firewall.Conntrack

/-!
# Connection tracking over whole runs

A run interleaves packets in both directions, exit-node replies, edits of rules
and defaults, changes of the SSH passthrough and sweeps of the evictor, under a
clock that never goes back. `FlowChange` says what one step can do to one flow;
`Supported` is the invariant that every live entry of the flow table has its
history: the outbound packet that opened it, no reset since, and a packet at the
instant its age is counted from. `conntrack_sound` is what follows for an inbound
packet that only connection tracking admits.
-/

namespace Rayfish

open Lib

/-! ## The machine -/

inductive FirewallOp where
  | packet (direction : Direction) (info : PacketInfo) (peer : EndpointId)
      (sharesNetwork : String → Bool)
  /-- An exit node's packet, admitted on connection tracking alone. -/
  | reply (info : PacketInfo)
  /-- An edit of the rules and defaults; the kill switch is not part of it. -/
  | edit (rules : List FirewallRule) (defaultInbound defaultOutbound : Action) (reject : Bool)
  | ssh (enabled : Bool) (port : UInt16)
  | evict

structure FirewallAct where
  now : Nat
  op : FirewallOp

/-- One operation; packets answer with their verdict. -/
def FirewallOp.run (fw : Firewall) (now : Nat) : FirewallOp → Option Action × Firewall
  | .packet direction info peer sharesNetwork =>
    let (action, fw) := evaluatePacket fw direction info peer sharesNetwork now
    (some action, fw)
  | .reply info =>
    let (admitted, fw) := admitsReply fw info now
    (some (if admitted then .allow else .deny), fw)
  | .edit rules defaultInbound defaultOutbound reject =>
    (none, { fw with config := { fw.config with rules, defaultInbound, defaultOutbound, reject } })
  | .ssh enabled port => (none, { fw with config := setSshPassthrough fw.config enabled port })
  | .evict => (none, { fw with conntrack := evictIdle fw.conntrack now })

structure ClockedFirewall where
  clock : Nat
  fw : Firewall

def firewallStep : StepRel ClockedFirewall FirewallAct (Option Action) := fun s a out s' =>
  s.clock ≤ a.now ∧ s'.clock = a.now ∧ a.op.run s.fw a.now = (out, s'.fw)

abbrev FirewallEntry := Entry ClockedFirewall FirewallAct (Option Action)

/-- A firewall that enforces its rules and tracks nothing yet. -/
def Fresh (s : ClockedFirewall) : Prop :=
  s.fw.config.disabled = false ∧ ∀ flow, s.fw.conntrack flow = none

/-- The packet a step allowed. -/
def allowedPacket (e : FirewallEntry) : Option (Direction × PacketInfo) :=
  match e.act.op, e.out with
  | .packet direction info _ _, some .allow => some (direction, info)
  | .reply info, some .allow => some (.incoming, info)
  | _, _ => none

/-- The step allowed a packet of `flow`. -/
def Allows (e : FirewallEntry) (direction : Direction) (flow : Flow) (info : PacketInfo) : Prop :=
  allowedPacket e = some (direction, info) ∧ Flow.of direction info = flow

/-- The step put `flow` into its closing window. -/
def EntersClosing (e : FirewallEntry) (flow : Flow) : Prop :=
  e.after.fw.conntrack flow = some (.closing e.act.now) ∧
    ∀ since, e.before.fw.conntrack flow ≠ some (.closing since)

/-! ## What one step does to one flow -/

inductive FlowChange (e : FirewallEntry) (flow : Flow) : Prop where
  | kept : e.after.fw.conntrack flow = e.before.fw.conntrack flow →
      (∀ direction info, Allows e direction flow info → isRst info →
        e.after.fw.conntrack flow = none) → FlowChange e flow
  | gone : e.after.fw.conntrack flow = none → FlowChange e flow
  | opened : Allows e .outgoing flow info → ¬isRst info →
      (isIcmp info.protocol → isIcmpEchoRequest info.protocol info.icmpType) →
      e.before.fw.conntrack flow = none →
      e.after.fw.conntrack flow = some (.active e.act.now) → FlowChange e flow
  | recorded :
      Allows e direction flow info → ¬isRst info →
      e.before.fw.conntrack flow = some state →
      e.after.fw.conntrack flow = some (state.record direction info e.act.now) →
      FlowChange e flow

variable {info : PacketInfo} {e : FirewallEntry} {s s' : ClockedFirewall} {a : FirewallAct}
  {h : List FirewallEntry}

variable {now : Nat} {flow : Flow} {s₀ : ClockedFirewall}

theorem trackPacket_ineligible (h : ¬conntrackEligible info) :
    trackPacket table .incoming info now = (false, table) :=
  if_pos (.inl ⟨rfl, h⟩)

/-- What evaluating a packet does while the firewall enforces its rules. -/
inductive Evaluated (fw : Firewall) (direction : Direction) (info : PacketInfo) (now : Nat) :
    Action × Firewall → Prop where
  | passed : Evaluated fw direction info now
      (.allow, { fw with conntrack := (trackPacket fw.conntrack direction info now).2 })
  | refused : Evaluated fw direction info now (.deny, fw)
  | untracked : (trackPacket fw.conntrack direction info now).1 = false →
      Evaluated fw direction info now
        (.deny, { fw with conntrack := (trackPacket fw.conntrack direction info now).2 })

theorem evaluatePacket_cases (enforcing : fw.config.disabled = false) (direction : Direction)
    (info : PacketInfo) (peer : EndpointId) (sharesNetwork : String → Bool) (now : Nat) :
    Evaluated fw direction info now
      (evaluatePacket fw direction info peer sharesNetwork now) := by
  unfold evaluatePacket
  rw [if_neg (by rw [enforcing]; exact Bool.false_ne_true)]
  split
  · split
    · exact .passed
    · exact .refused
  · cases direction with
    | outgoing =>
      dsimp only
      split
      · exact .passed
      · exact .refused
    | incoming =>
      dsimp only
      split
      · rcases hok : (trackPacket fw.conntrack .incoming info now).1 with _ | _
        · cases defaultFor fw.config .incoming
          · exact .passed
          · exact .untracked hok
        · exact .passed
      · next ineligible =>
        cases defaultFor fw.config .incoming
        · have : Evaluated fw .incoming info now _ := .passed
          rw [trackPacket_ineligible ineligible] at this
          exact this
        · exact .refused

/-- A step that went through one access of the flow table. -/
theorem flowChange_of_tracked (flow : Flow)
    (after : e.after.fw.conntrack = (trackPacket e.before.fw.conntrack direction info e.act.now).2)
    (allowed : (trackPacket e.before.fw.conntrack direction info e.act.now).1 = true →
      allowedPacket e = some (direction, info))
    (only : ∀ packet, allowedPacket e = some packet → packet = (direction, info)) :
    FlowChange e flow := by
  have access := trackPacket_cases e.before.fw.conntrack direction info e.act.now
  generalize trackPacket e.before.fw.conntrack direction info e.act.now = result at *
  -- another flow's entry stays, and no packet of that flow was allowed here
  have other : flow ≠ Flow.of direction info → ∀ state,
      e.after.fw.conntrack = Function.update e.before.fw.conntrack (Flow.of direction info) state →
      FlowChange e flow := by
    intro ne state updated
    refine .kept (by rw [updated, Function.update_of_ne ne]) fun d i hallows _ => ?_
    obtain ⟨hpacket, hflow⟩ := hallows
    cases only _ hpacket
    exact absurd hflow.symm ne
  cases access with
  | untouched vacant =>
    refine .kept (by rw [after]) fun d i hallows rst => ?_
    obtain ⟨hpacket, hflow⟩ := hallows
    cases only _ hpacket
    rw [after, ← hflow]
    exact vacant rst
  | reset rst found =>
    by_cases same : flow = Flow.of direction info
    · subst same
      exact .gone (by rw [after]; exact Function.update_self ..)
    · exact other same _ after
  | recorded notRst found fresh =>
    by_cases same : flow = Flow.of direction info
    · subst same
      exact .recorded ⟨allowed rfl, rfl⟩ notRst found (by rw [after]; exact Function.update_self ..)
    · exact other same _ after
  | opened notRst outgoing vacant request =>
    by_cases same : flow = Flow.of direction info
    · subst outgoing same
      exact .opened ⟨allowed rfl, rfl⟩ notRst request vacant
        (by rw [after]; exact Function.update_self ..)
    · exact other same _ after

theorem flowChange_of_untouched (flow : Flow) (after : e.after.fw.conntrack = e.before.fw.conntrack)
    (none : allowedPacket e = none) :
    FlowChange e flow := by
  refine .kept (by rw [after]) fun direction info hallows _ => ?_
  rw [Allows, none] at hallows
  cases hallows.1

/-- The kill switch stays off, and every flow changes in one of four ways. -/
theorem step_flowChange (step : firewallStep s a out s')
    (enforcing : s.fw.config.disabled = false) :
    s'.fw.config.disabled = false ∧ ∀ flow, FlowChange ⟨s, a, out, s'⟩ flow := by
  obtain ⟨clock', fw'⟩ := s'
  obtain ⟨_, _, ran⟩ := step
  obtain ⟨now, op⟩ := a
  cases op with
  | packet direction info peer sharesNetwork =>
    have evaluated := evaluatePacket_cases enforcing direction info peer sharesNetwork now
    simp only [FirewallOp.run] at ran
    generalize evaluatePacket s.fw direction info peer sharesNetwork now = result at *
    cases ran
    cases evaluated with
    | passed =>
      exact ⟨enforcing, fun flow => flowChange_of_tracked flow rfl (fun _ => rfl)
        (fun packet h => (Option.some.inj h).symm)⟩
    | refused => exact ⟨enforcing, fun flow => flowChange_of_untouched flow rfl rfl⟩
    | untracked failed =>
      refine ⟨enforcing, fun flow => flowChange_of_tracked flow rfl (fun ok => ?_) ?_⟩
      · rw [failed] at ok
        cases ok
      · rintro packet ⟨⟩
  | reply info =>
    simp only [FirewallOp.run, admitsReply, enforcing, Bool.false_eq_true, if_false] at ran
    cases ran
    refine ⟨enforcing, fun flow => flowChange_of_tracked flow rfl (fun ok => ?_) ?_⟩
    · simp only [allowedPacket, ok, if_true]
    · intro packet h
      cases hok : (trackPacket s.fw.conntrack .incoming info now).1 <;>
        simp only [hok] at h
      · cases h
      · exact (Option.some.inj h).symm
  | edit rules defaultInbound defaultOutbound reject | ssh enabled port =>
    cases ran
    exact ⟨enforcing, fun flow => flowChange_of_untouched flow rfl rfl⟩
  | evict =>
    cases ran
    refine ⟨enforcing, fun flow => ?_⟩
    rcases found : s.fw.conntrack flow with _ | state
    · exact .gone (by simp [evictIdle, found])
    · by_cases active : state.isActive flow.proto now
      · refine .kept (by simp [evictIdle, found, active]) ?_
        rintro direction info ⟨⟨⟩, _⟩
      · exact .gone (by simp [evictIdle, found, active])

/-! ## The history behind a live entry -/

/-- The step's outbound packet opened the entry of `flow`. -/
structure Opens (e : FirewallEntry) (flow : Flow) (info : PacketInfo) : Prop where
  allows : Allows e .outgoing flow info
  before : e.before.fw.conntrack flow = none
  after : e.after.fw.conntrack flow = some (.active e.act.now)
  request : isIcmp flow.proto → isIcmpEchoRequest flow.proto info.icmpType

/-- What the history says of a flow whose entry is `state`. -/
structure Supported (h : List FirewallEntry) (flow : Flow) (state : FlowState) : Prop where
  /-- An outbound packet opened the entry, and no reset was allowed since. -/
  opening : ∃ pre e post info, h = pre ++ e :: post ∧ Opens e flow info ∧
    ∀ e' ∈ post, ∀ direction info, Allows e' direction flow info → ¬isRst info
  /-- A packet was allowed at the instant the entry's age is counted from. -/
  seen : ∃ e ∈ h, (∃ direction info, Allows e direction flow info) ∧ e.act.now = state.seen
  /-- A closing window is left only by an outbound packet. -/
  closing : ∀ pre e post, h = pre ++ e :: post → EntersClosing e flow →
    (∀ e' ∈ post, ∀ info, ¬Allows e' .outgoing flow info) → state = .closing e.act.now

theorem allows_proto (h : Allows e direction flow info) : info.protocol = flow.proto := by
  rw [← h.2]
  cases direction <;> rfl

theorem record_seen (state : FlowState) (direction : Direction) (info : PacketInfo) (now : Nat) :
    (state.record direction info now).seen = now ∨
      (state.record direction info now = state ∧ ∃ since, state = .closing since) := by
  unfold FlowState.record
  split
  · exact .inl rfl
  · cases state with
    | active lastSeen | halfClosed lastSeen first =>
      dsimp only
      split <;> exact .inl rfl
    | closing since => exact .inr ⟨rfl, since, rfl⟩

theorem record_closing_incoming :
    (FlowState.closing since).record .incoming info now = .closing since :=
  if_neg fun h => absurd h.2.1 (by decide)

/-- An entry that survives a step keeps its opening packet, unless the step
allowed a reset. -/
theorem Supported.opening_snoc (support : Supported h flow state)
    (noReset : ∀ direction info, Allows e direction flow info → ¬isRst info) :
    ∃ pre e' post info, h ++ [e] = pre ++ e' :: post ∧ Opens e' flow info ∧
      ∀ e'' ∈ post, ∀ direction info, Allows e'' direction flow info → ¬isRst info := by
  obtain ⟨pre, e', post, info, rfl, opens, quiet⟩ := support.opening
  refine ⟨pre, e', post ++ [e], info, by simp, opens, ?_⟩
  intro e'' member
  rcases mem_snoc_cases member with older | rfl
  · exact quiet e'' older
  · exact noReset

/-- Whatever a step leaves in the table is backed by the history with that step. -/
theorem supported_step
    (before : ∀ state, e.before.fw.conntrack flow = some state → Supported h flow state)
    (change : FlowChange e flow) (found : e.after.fw.conntrack flow = some state) :
    Supported (h ++ [e]) flow state := by
  cases change with
  | gone gone =>
    rw [gone] at found
    cases found
  | kept same reset =>
    have support := before state (same ▸ found)
    refine ⟨support.opening_snoc fun direction info allows rst => ?_, ?_, ?_⟩
    · rw [reset direction info allows rst] at found
      cases found
    · obtain ⟨e', member, rest⟩ := support.seen
      exact ⟨e', List.mem_append_left _ member, rest⟩
    · intro pre e' post heq enters quiet
      rcases snoc_cases heq with ⟨rfl, rfl, rfl⟩ | ⟨post', rfl, rfl⟩
      · exact absurd (same ▸ enters.1) (enters.2 _)
      · exact support.closing pre e' post' rfl enters fun e'' member =>
          quiet e'' (List.mem_append_left _ member)
  | @opened info allows notRst request vacant after =>
    rw [after] at found
    cases found
    have opens : Opens e flow info := ⟨allows, vacant, after, allows_proto allows ▸ request⟩
    refine ⟨⟨h, e, [], info, rfl, opens, ?_⟩, ?_, ?_⟩
    · intro e' member
      cases member
    · exact ⟨e, mem_snoc, ⟨_, _, allows⟩, rfl⟩
    · intro pre e' post heq enters quiet
      rcases snoc_cases heq with ⟨rfl, rfl, rfl⟩ | ⟨post', rfl, rfl⟩
      · rw [EntersClosing, after] at enters
        cases enters.1
      · exact absurd allows (quiet e mem_snoc info)
  | @recorded direction info old allows notRst held after =>
    rw [after] at found
    cases found
    have support := before old held
    refine ⟨support.opening_snoc fun d i allows' => ?_, ?_, ?_⟩
    · have same := allows.1.symm.trans allows'.1
      cases same
      exact notRst
    · rcases record_seen old direction info e.act.now with fresh | ⟨same, _⟩
      · exact ⟨e, mem_snoc, ⟨_, _, allows⟩, fresh.symm⟩
      · obtain ⟨e', member, rest⟩ := support.seen
        rw [same]
        exact ⟨e', List.mem_append_left _ member, rest⟩
    · intro pre e' post heq enters quiet
      rcases snoc_cases heq with ⟨rfl, rfl, rfl⟩ | ⟨post', rfl, rfl⟩
      · exact Option.some.inj (after.symm.trans enters.1)
      · cases direction with
        | outgoing =>
          exact absurd allows (quiet e mem_snoc info)
        | incoming =>
          rw [support.closing pre e' post' rfl enters fun e'' member =>
            quiet e'' (List.mem_append_left _ member)]
          exact record_closing_incoming

/-- Along every run from a fresh firewall the kill switch stays off and every
live entry is backed by the history. -/
theorem run_supported (fresh : Fresh s₀) (run : Run firewallStep s₀ h s) :
    s.fw.config.disabled = false ∧
      ∀ flow state, s.fw.conntrack flow = some state → Supported h flow state := by
  induction run with
  | nil =>
    refine ⟨fresh.1, fun flow state found => ?_⟩
    rw [fresh.2 flow] at found
    cases found
  | snoc _ step held =>
    obtain ⟨enforcing, changes⟩ := step_flowChange step held.1
    exact ⟨enforcing, fun flow state found => supported_step (held.2 flow) (changes flow) found⟩

/-- The clock of a run never goes back. -/
theorem run_clock (run : Run firewallStep s₀ h s) :
    (∀ e ∈ h, e.act.now ≤ s.clock) ∧
      ∀ pre e post, h = pre ++ e :: post → ∀ e' ∈ pre, e'.act.now ≤ e.act.now := by
  induction run with
  | nil => exact ⟨by simp, by simp⟩
  | snoc _ step held =>
    obtain ⟨forward, clock, _⟩ := step
    refine ⟨fun e member => ?_, fun pre e post heq e' member => ?_⟩
    · rcases mem_snoc_cases member with older | rfl
      · exact le_trans (held.1 e older) (le_trans forward (le_of_eq clock.symm))
      · exact le_of_eq clock.symm
    · rcases snoc_cases heq with ⟨rfl, rfl, rfl⟩ | ⟨post', rfl, rfl⟩
      · exact le_trans (held.1 e' member) forward
      · exact held.2 pre e post' rfl e' member

/-! ## Replies -/

/-- The step hands in `info` from outside, and neither a rule nor the default
allows it. -/
def OnlyConntrack (s : ClockedFirewall) (a : FirewallAct) (info : PacketInfo) : Prop :=
  a.op = .reply info ∨
    ∃ peer sharesNetwork, a.op = .packet .incoming info peer sharesNetwork ∧
      s.fw.config.defaultInbound = .deny ∧
      ∀ rule, matchRule s.fw.config .incoming info.protocol info.dstPort peer sharesNetwork =
        some rule → rule.action ≠ .allow

/-- An inbound packet that is backed by what this host sent before. -/
structure BackedReply (h : List FirewallEntry) (now : Nat) (info : PacketInfo) : Prop where
  /-- An outbound packet of the flow opened it, and no reset was allowed since;
  for ICMP it was an echo request. -/
  opened : ∃ pre e post opening, h = pre ++ e :: post ∧
    Opens e (Flow.of .incoming info) opening ∧
    ∀ e' ∈ post, ∀ direction i, Allows e' direction (Flow.of .incoming info) i → ¬isRst i
  icmp : isIcmp info.protocol → isIcmpEchoReply info.protocol info.icmpType
  /-- The last allowed packet of the flow is recent. -/
  recent : ∀ pre e post, h = pre ++ e :: post →
    (∃ direction i, Allows e direction (Flow.of .incoming info) i) →
    (∀ e' ∈ post, ∀ direction i, ¬Allows e' direction (Flow.of .incoming info) i) →
    now < e.act.now + if info.protocol = 6 then tcpFlowTimeout else udpFlowTimeout
  /-- In a closing window that no outbound packet left, only for so long, and
  without SYN unless it resets the connection. -/
  closing : ∀ pre e post, h = pre ++ e :: post → EntersClosing e (Flow.of .incoming info) →
    (∀ e' ∈ post, ∀ i, ¬Allows e' .outgoing (Flow.of .incoming info) i) →
    now < e.act.now + tcpClosingTimeout ∧ (carriesSyn info → isRst info)

theorem not_isIcmp_of_rst (rst : isRst info) : isIcmp info.protocol = false := by
  rw [rst.1]
  rfl

/-- What an inbound access that succeeds found in the table. -/
theorem tracked_incoming (ok : (trackPacket table .incoming info now).1 = true) :
    ∃ state, table (Flow.of .incoming info) = some state ∧
      state.isActive info.protocol now = true ∧
      (isIcmp info.protocol → isIcmpEchoReply info.protocol info.icmpType) ∧
      (state.isClosing → carriesSyn info → isRst info) := by
  have access := trackPacket_cases table .incoming info now
  generalize trackPacket table .incoming info now = result at *
  cases access with
  | untouched _ => cases ok
  | @reset state rst found =>
    refine ⟨state, found, ok, fun icmp => ?_, fun _ _ => rst⟩
    rw [not_isIcmp_of_rst rst] at icmp
    cases icmp
  | @recorded state notRst found fresh =>
    obtain ⟨eligible, active, notReopening⟩ := fresh rfl
    refine ⟨state, found, active, fun icmp => ?_, fun closing syn => ?_⟩
    · simpa [conntrackEligible, icmp] using eligible
    · exact absurd ⟨closing, syn⟩ notReopening
  | opened _ outgoing _ _ => cases outgoing

theorem onlyConntrack_tracked (enforcing : s.fw.config.disabled = false)
    (only : OnlyConntrack s a info) (step : firewallStep s a (some .allow) s') :
    (trackPacket s.fw.conntrack .incoming info a.now).1 = true := by
  obtain ⟨_, _, ran⟩ := step
  have allowed := congrArg Prod.fst ran
  rcases only with reply | ⟨peer, sharesNetwork, packet, deny, noRule⟩
  · rw [reply] at allowed
    simp only [FirewallOp.run, admitsReply, enforcing, Bool.false_eq_true, if_false] at allowed
    by_contra refused
    rw [if_neg refused] at allowed
    cases allowed
  · rw [packet] at allowed
    simp only [FirewallOp.run, evaluatePacket, defaultFor, enforcing, Bool.false_eq_true, if_false,
      deny] at allowed
    split at allowed
    · next rule found =>
      split at allowed
      · next allow => exact absurd allow (noRule rule found)
      · cases allowed
    · by_contra refused
      split at allowed <;> cases allowed

theorem backedReply_of_supported (fresh : Fresh s₀) (run : Run firewallStep s₀ h s)
    (step : firewallStep s a (some .allow) s') (only : OnlyConntrack s a info) :
    BackedReply h a.now info := by
  obtain ⟨enforcing, supported⟩ := run_supported fresh run
  obtain ⟨clock, ordered⟩ := run_clock run
  obtain ⟨state, found, active, icmp, reopening⟩ :=
    tracked_incoming (onlyConntrack_tracked enforcing only step)
  have support := supported _ _ found
  have age : a.now - state.seen < state.timeout info.protocol := of_decide_eq_true active
  refine ⟨support.opening, icmp, ?_, ?_⟩
  · intro pre e post heq allowed last
    obtain ⟨e', member, ⟨direction, i, allows⟩, seen⟩ := support.seen
    have notAfter : e'.act.now ≤ e.act.now := by
      rw [heq] at member
      rcases List.mem_append.mp member with older | atOrLater
      · exact ordered pre e post heq e' older
      · rcases List.mem_cons.mp atOrLater with rfl | later
        · exact le_refl _
        · exact absurd allows (last e' later direction i)
    have short : state.timeout info.protocol ≤
        if info.protocol = 6 then tcpFlowTimeout else udpFlowTimeout := by
      cases state with
      | active _ | halfClosed _ _ => exact le_refl _
      | closing _ =>
        show tcpClosingTimeout ≤ _
        split <;> decide
    omega
  · intro pre e post heq enters quiet
    obtain rfl := support.closing pre e post heq enters quiet
    refine ⟨?_, reopening rfl⟩
    simp only [FlowState.seen, FlowState.timeout] at age
    omega

theorem incoming_opens_nothing (enforcing : s.fw.config.disabled = false)
    (step : firewallStep s a out s')
    (incoming : a.op = .reply info ∨
      ∃ peer sharesNetwork, a.op = .packet .incoming info peer sharesNetwork)
    (flow : Flow) (absent : s.fw.conntrack flow = none) : s'.fw.conntrack flow = none := by
  cases (step_flowChange step enforcing).2 flow with
  | kept same _ => exact same.trans absent
  | gone gone => exact gone
  | opened allows _ _ _ _ =>
    have packet := allows.1
    rcases incoming with reply | ⟨peer, sharesNetwork, hop⟩
    · simp only [allowedPacket] at packet
      split at packet <;> simp_all
    · simp only [allowedPacket] at packet
      split at packet <;> simp_all
  | recorded _ _ held _ =>
    rw [absent] at held
    cases held

/-- Soundness of connection tracking, in every run and at every step of it: an
inbound packet that neither a rule nor the default allows is admitted only when
the history backs it, and an inbound packet opens no flow. -/
theorem conntrack_sound {s₀ s s' : ClockedFirewall} {h : List FirewallEntry} {a : FirewallAct}
    {out : Option Action} (fresh : Fresh s₀) (run : Run firewallStep s₀ h s)
    (step : firewallStep s a out s') :
    (∀ info, OnlyConntrack s a info → out = some .allow → BackedReply h a.now info) ∧
      ∀ info, (a.op = .reply info ∨
          ∃ peer sharesNetwork, a.op = .packet .incoming info peer sharesNetwork) →
        ∀ flow, s.fw.conntrack flow = none → s'.fw.conntrack flow = none := by
  refine ⟨fun info only allowed => ?_, fun info incoming flow absent => ?_⟩
  · subst allowed
    exact backedReply_of_supported fresh run step only
  · exact incoming_opens_nothing (run_supported fresh run).1 step incoming flow absent

/-! ## A connection closed by both sides -/

/-- The step that runs an operation. -/
def FirewallAct.exec (a : FirewallAct) (s : ClockedFirewall) : FirewallEntry :=
  ⟨s, a, (a.op.run s.fw a.now).1, ⟨a.now, (a.op.run s.fw a.now).2⟩⟩

def denyInbound : ClockedFirewall where
  clock := 0
  fw := ⟨⟨.deny, .allow, false, false, []⟩, fun _ => none⟩

/-- A TCP segment of the connection from `200::1` port 1000 to `200::2` port 80. -/
def segment (direction : Direction) (flags : UInt8) : PacketInfo :=
  match direction with
  | .outgoing => ⟨.v6 (0x0200 <<< 112 + 1), .v6 (0x0200 <<< 112 + 2), 6, 1000, 80, flags, 0, 0, 40⟩
  | .incoming => ⟨.v6 (0x0200 <<< 112 + 2), .v6 (0x0200 <<< 112 + 1), 6, 80, 1000, flags, 0, 0, 40⟩

def segmentAct (now : Nat) (direction : Direction) (flags : UInt8) : FirewallAct :=
  ⟨now, .packet direction (segment direction flags) 0 fun _ => false⟩

def synSent : FirewallEntry := (segmentAct 1 .outgoing 0x02).exec denyInbound

def finReceived : FirewallEntry := (segmentAct 2 .incoming 0x11).exec synSent.after

def finSent : FirewallEntry := (segmentAct 3 .outgoing 0x11).exec finReceived.after

theorem exec_step (forward : s.clock ≤ a.now) : firewallStep s a (a.exec s).out (a.exec s).after :=
  ⟨forward, rfl, rfl⟩

/-- The connection is opened, and closed by both sides. -/
theorem closedRun : Run firewallStep denyInbound [synSent, finReceived, finSent] finSent.after :=
  .snoc (.snoc (.snoc .nil (exec_step (by decide))) (exec_step (by decide)))
    (exec_step (by decide))

/-- Once both sides have closed, an inbound segment with SYN and RST is admitted. -/
theorem closing_admits_syn_rst :
    Run firewallStep denyInbound [synSent, finReceived, finSent] finSent.after ∧
      EntersClosing finSent (Flow.of .incoming (segment .incoming 0x06)) ∧
      OnlyConntrack finSent.after (segmentAct 4 .incoming 0x06) (segment .incoming 0x06) ∧
      ((segmentAct 4 .incoming 0x06).exec finSent.after).out = some .allow ∧
      carriesSyn (segment .incoming 0x06) := by
  refine ⟨closedRun, ⟨by decide, fun since => ?_⟩, .inr ⟨0, fun _ => false, rfl, rfl, ?_⟩,
    by decide, by decide⟩
  · rintro ⟨⟩
  · rintro rule ⟨⟩

/-- The final acknowledgment of that connection is backed by its history. -/
theorem conntrack_sound_finalAck :
    BackedReply [synSent, finReceived, finSent] 4 (segment .incoming 0x10) := by
  have step := exec_step (a := segmentAct 4 .incoming 0x10) (s := finSent.after) (by decide)
  refine (conntrack_sound ⟨rfl, fun _ => rfl⟩ closedRun step).1 _
    (.inr ⟨0, fun _ => false, rfl, rfl, ?_⟩) (by decide)
  rintro rule ⟨⟩

end Rayfish
