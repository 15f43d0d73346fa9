import Rayfish.Lib.Run
import Rayfish.ExitNode
import Rayfish.Firewall.PacketSpec
import Rayfish.Forward.FragVerdicts
import Rayfish.Forward.Fragment

/-!
# Authorization of inbound datagrams

`evaluateInbound` decides what happens to a packet received from a peer
(`forward.rs`): size, parsing, anti-spoofing, exit transit, exit return, fragment
verdicts and the firewall. `accept_authorized` says that along every run of one
reader an accepted packet falls under exactly one of three authorizations.
-/

namespace Rayfish

open Lib

structure InboundPeer where
  /-- The sender's user identity. -/
  identity : EndpointId
  /-- The hash of the sending device's identity, cut to fifteen bytes. -/
  digest : BitVec 120
  network : String
  sharesNetwork : String → Bool

def InboundPeer.ipv6 (peer : InboundPeer) : Ipv6Addr := deriveIpv6 peer.digest

inductive InboundDecision where
  | accept (info : PacketInfo)
  | dropFirewall (info : PacketInfo)
  | dropMalformed
  | dropFragment
  | dropSpoof
  | dropExit
  deriving DecidableEq, Repr

/-- The parsed packet, with the fragment it is, if it is one. -/
def classify (packet : Bytes) : Option (PacketInfo × Option Ipv6Fragment) :=
  match parsePacketInfo packet with
  | some info => some (info, none)
  | none => (parseIpv6Fragment packet).map fun f => (f.info, some f)

section

variable (info : PacketInfo) (exit : ExitContext) (peer : InboundPeer)

def isSshFragment (meshPort : UInt16) : Bool :=
  info.protocol == 6 && info.dstPort == meshPort

/-- An IPv4 exit return as it reaches our TUN. -/
def deliveredInfo : PacketInfo :=
  if info.dstIp = .v4 wireClientAddr then { info with dstIp := .v4 localClientAddr } else info

/-- The anti-spoof check: the peer's own address, or the shared wire address of
exit transit. -/
def srcOk : Bool :=
  info.srcIp == .v6 peer.ipv6 ||
    (info.srcIp == .v4 wireClientAddr && isTransitable info.dstIp)

def dstIsMe : Bool :=
  info.dstIp == .v6 exit.myV6 ||
    (info.dstIp == .v4 wireClientAddr && exit.client.selection.any (·.carries.carriesV4))

/-- Return traffic of our own exit selection. -/
def exitReturn : Bool :=
  exit.client.isReturnFrom peer.identity peer.ipv6 && isTransitable info.srcIp && dstIsMe info exit

def transitPermitted : Bool :=
  exit.server.allows peer.network peer.identity && isTransitable info.dstIp &&
    !exit.server.isOnLink info.dstIp && !exit.server.isSelfAddr info.dstIp

end

/-- The firewall's verdict on a whole packet or a first fragment. -/
def judge (fw : Firewall) (peer : InboundPeer) (returning : Bool) (info : PacketInfo)
    (now : Nat) : Bool × Firewall :=
  if returning then admitsReply fw (deliveredInfo info) now
  else
    let (action, fw) := evaluatePacket fw .incoming info peer.identity peer.sharesNetwork now
    (action != .deny, fw)

/-- The last stage of the evaluation: fragment verdicts and the firewall. -/
def deliver (fw : Firewall) (peer : InboundPeer) (sshPort : UInt16) (now : Nat)
    (returning : Bool) (info : PacketInfo) (fragments : FragmentVerdicts) :
    Option Ipv6Fragment → InboundDecision × Firewall × FragmentVerdicts
  | none =>
    let (admitted, fw) := judge fw peer returning info now
    (if admitted then .accept info else .dropFirewall info, fw, fragments)
  | some f =>
    if !f.first then
      -- A later fragment has no ports to judge; its first fragment decided.
      let (admitted, fragments) := fragments.admits f.key now
      (if admitted then .accept info else .dropFragment, fw, fragments)
    else if isSshFragment f.info sshPort then (.dropFragment, fw, fragments)
    else
      let (admitted, fw) := judge fw peer returning info now
      if admitted then (.accept info, fw, fragments.allow f.key now)
      else (.dropFirewall info, fw, fragments)

def evaluateInbound (packet : Bytes) (fw : Firewall) (exit : ExitContext) (peer : InboundPeer)
    (sshPort : UInt16) (now : Nat) (fragments : FragmentVerdicts) :
    InboundDecision × Firewall × FragmentVerdicts :=
  if packet.length > maxPacket then (.dropMalformed, fw, fragments)
  else
    match classify packet with
    | none => (.dropMalformed, fw, fragments)
    | some (info, ipFragment) =>
      if srcOk info peer then
        if !isOverlayIp info.dstIp then
          (if transitPermitted info exit peer then .accept info else .dropExit, fw, fragments)
        else deliver fw peer sshPort now false info fragments ipFragment
      else if exitReturn info exit peer then
        -- Replies from our exit are not transit, whatever their destination.
        deliver fw peer sshPort now true info fragments ipFragment
      else (.dropSpoof, fw, fragments)

/-! ## One reader -/

/-- Everything one call reads besides the reader's own fragment verdicts. -/
structure InboundCall where
  packet : Bytes
  fw : Firewall
  exit : ExitContext
  peer : InboundPeer
  sshPort : UInt16
  now : Nat

/-- One datagram of a peer reader. The firewall, the exit context and the peer
are whatever they are at that moment. -/
def inboundStep : StepRel FragmentVerdicts InboundCall InboundDecision := fun v c out v' =>
  ∃ fw', evaluateInbound c.packet c.fw c.exit c.peer c.sshPort c.now v = (out, fw', v')

abbrev InboundEntry := Entry FragmentVerdicts InboundCall InboundDecision

/-- The firewall allowed the packet as one addressed to this node. -/
def FirewallAllows (c : InboundCall) (info : PacketInfo) : Prop :=
  (evaluatePacket c.fw .incoming info c.peer.identity c.peer.sharesNetwork c.now).1 = .allow

/-- Connection tracking admitted the packet as a reply through the exit. -/
def ReplyAdmitted (c : InboundCall) (info : PacketInfo) : Prop :=
  (admitsReply c.fw (deliveredInfo info) c.now).1 = true

/-- The step accepted a first fragment and recorded its key. -/
def Records (e : InboundEntry) (key : FragmentKey) : Prop :=
  ∃ f, classify e.act.packet = some (f.info, some f) ∧ f.first = true ∧ f.key = key ∧
    e.out = .accept f.info ∧ (FirewallAllows e.act f.info ∨ ReplyAdmitted e.act f.info)

/-- How a packet got past the firewall: judged itself, as a whole packet or a
first fragment, or following a first fragment that was. -/
inductive Passed (h : List InboundEntry) (c : InboundCall) (info : PacketInfo) (verdict : Prop) :
    Prop where
  | whole : classify c.packet = some (info, none) → verdict → Passed h c info verdict
  | first : classify c.packet = some (info, some f) → f.first = true →
      verdict → Passed h c info verdict
  | later : classify c.packet = some (info, some f) →
      f.first = false → e ∈ h → Records e f.key → Passed h c info verdict

section

variable (h : List InboundEntry) (c : InboundCall) (info : PacketInfo)

/-- Traffic from the peer to the overlay. -/
structure MeshDelivery : Prop where
  source : info.srcIp = .v6 c.peer.ipv6
  destination : isOverlayIp info.dstIp = true
  passed : Passed h c info (FirewallAllows c info)

/-- Traffic the peer routes out through this node. -/
structure ExitTransit : Prop where
  destination : isOverlayIp info.dstIp = false
  allowed : c.exit.server.allows c.peer.network c.peer.identity = true
  transitable : isTransitable info.dstIp = true
  offLink : c.exit.server.isOnLink info.dstIp = false
  notSelf : c.exit.server.isSelfAddr info.dstIp = false
  source : info.srcIp = .v6 c.peer.ipv6 ∨ info.srcIp = .v4 wireClientAddr

/-- Replies from the internet through this node's selected exit. -/
structure ExitReply : Prop where
  selected : c.exit.client.isReturnFrom c.peer.identity c.peer.ipv6 = true
  source : isTransitable info.srcIp = true
  destination : info.dstIp = .v6 c.exit.myV6 ∨
    (info.dstIp = .v4 wireClientAddr ∧
      ∃ s, c.exit.client.selection = some s ∧ s.carries.carriesV4 = true)
  passed : Passed h c info (ReplyAdmitted c info)

/-- What an accepted packet satisfies: it is small enough, it parses, and exactly
one of the three authorizations holds for it. -/
structure Authorized : Prop where
  length : c.packet.length ≤ 1500
  parses : parsePacketInfo c.packet = some info ∨
    ∃ f, parseIpv6Fragment c.packet = some f ∧ f.info = info
  reason : (MeshDelivery h c info ∧ ¬ExitTransit c info ∧ ¬ExitReply h c info) ∨
    (¬MeshDelivery h c info ∧ ExitTransit c info ∧ ¬ExitReply h c info) ∨
    (¬MeshDelivery h c info ∧ ¬ExitTransit c info ∧ ExitReply h c info)

end

/-! ## What one call does -/

/-- What got a packet past the last stage of the evaluation. -/
inductive Judged (v : FragmentVerdicts) (c : InboundCall) (info : PacketInfo) (verdict : Prop) :
    Option Ipv6Fragment → FragmentVerdicts → Prop where
  | whole : verdict → Judged v c info verdict none v
  | first : f.first = true → verdict → Judged v c info verdict (some f) (v.allow f.key c.now)
  | later : f.first = false → f.key ∈ v.allowed →
      Judged v c info verdict (some f) (v.admits f.key c.now).2

/-- Everything a step can do: it accepts for one of three reasons, or it drops
the packet and records nothing. -/
inductive InboundOutcome (v : FragmentVerdicts) (c : InboundCall) :
    InboundDecision → FragmentVerdicts → Prop where
  | transit :
      classify c.packet = some (info, ipFragment) → c.packet.length ≤ maxPacket →
      srcOk info c.peer = true → isOverlayIp info.dstIp = false →
      transitPermitted info c.exit c.peer = true → InboundOutcome v c (.accept info) v
  | mesh :
      classify c.packet = some (info, ipFragment) → c.packet.length ≤ maxPacket →
      srcOk info c.peer = true → isOverlayIp info.dstIp = true →
      Judged v c info (FirewallAllows c info) ipFragment v' →
      InboundOutcome v c (.accept info) v'
  | reply :
      classify c.packet = some (info, ipFragment) → c.packet.length ≤ maxPacket →
      exitReturn info c.exit c.peer = true →
      Judged v c info (ReplyAdmitted c info) ipFragment v' →
      InboundOutcome v c (.accept info) v'
  | dropped : (∀ info, out ≠ .accept info) → v'.allowed ⊆ v.allowed → InboundOutcome v c out v'

variable {info : PacketInfo} {v v' : FragmentVerdicts} {c : InboundCall} {h : List InboundEntry}

theorem judge_false (h : (judge fw peer false info now).1 = true) :
    (evaluatePacket fw .incoming info peer.identity peer.sharesNetwork now).1 = .allow := by
  simp only [judge] at h
  cases action : (evaluatePacket fw .incoming info peer.identity peer.sharesNetwork now).1
  · rfl
  · rw [action] at h
    cases h

theorem deliver_cases (v : FragmentVerdicts) (c : InboundCall) (returning : Bool)
    (info : PacketInfo) (ipFragment : Option Ipv6Fragment) :
    let result := deliver c.fw c.peer c.sshPort c.now returning info v ipFragment
    (result.1 = .accept info ∧
        Judged v c info ((judge c.fw c.peer returning info c.now).1 = true) ipFragment
          result.2.2) ∨
      ((∀ info, result.1 ≠ .accept info) ∧ result.2.2.allowed ⊆ v.allowed) := by
  intro result
  cases ipFragment with
  | none =>
    cases admitted : (judge c.fw c.peer returning info c.now).1 with
    | false => exact .inr ⟨by simp [result, deliver, admitted], Finset.Subset.refl _⟩
    | true => exact .inl ⟨by simp [result, deliver, admitted], .whole rfl⟩
  | some f =>
    cases first : f.first with
    | false =>
      have after : result.2.2 = (v.admits f.key c.now).2 := by simp [result, deliver, first]
      cases admitted : (v.admits f.key c.now).1 with
      | false =>
        refine .inr ⟨by simp [result, deliver, first, admitted], ?_⟩
        rw [after]
        exact v.expire_subset c.now
      | true =>
        refine .inl ⟨by simp [result, deliver, first, admitted], ?_⟩
        rw [after]
        exact .later first (FragmentVerdicts.mem_of_admits admitted)
    | true =>
      cases ssh : isSshFragment f.info c.sshPort with
      | true =>
        simp [result, deliver, first, ssh]
      | false =>
        cases admitted : (judge c.fw c.peer returning info c.now).1 with
        | false =>
          simp [result, deliver, first, ssh, admitted]
        | true =>
          refine .inl ⟨by simp [result, deliver, first, ssh, admitted], ?_⟩
          have after : result.2.2 = v.allow f.key c.now := by
            simp [result, deliver, first, ssh, admitted]
          rw [after]
          exact .first first rfl

variable {verdict : Prop} {ipFragment : Option Ipv6Fragment}

theorem Judged.mono (implies : verdict → verdict') (h : Judged v c info verdict ipFragment v') :
    Judged v c info verdict' ipFragment v' := by
  cases h with
  | whole hv => exact .whole (implies hv)
  | first first hv => exact .first first (implies hv)
  | later later member => exact .later later member

theorem inboundStep_cases (step : inboundStep v c out v') : InboundOutcome v c out v' := by
  obtain ⟨fw', ran⟩ := step
  unfold evaluateInbound at ran
  split at ran
  · cases ran
    exact .dropped (fun _ h => nomatch h) (Finset.Subset.refl _)
  have length : c.packet.length ≤ maxPacket := by omega
  split at ran
  · cases ran
    exact .dropped (fun _ h => nomatch h) (Finset.Subset.refl _)
  next info ipFragment classified =>
  split at ran
  · next ok =>
    split at ran
    · next outside =>
      cases ran
      split
      · next permitted =>
        exact .transit classified length ok (by simpa using outside) permitted
      · exact .dropped (fun _ h => nomatch h) (Finset.Subset.refl _)
    · next overlay =>
      have overlay : isOverlayIp info.dstIp = true := by simpa using overlay
      rcases deliver_cases v c false info ipFragment with ⟨accepted, judged⟩ | ⟨refused, kept⟩
      · rw [ran] at accepted judged
        cases accepted
        exact .mesh classified length ok overlay (judged.mono judge_false)
      · rw [ran] at refused kept
        exact .dropped refused kept
  · split at ran
    · next exitReply =>
      rcases deliver_cases v c true info ipFragment with ⟨accepted, judged⟩ | ⟨refused, kept⟩
      · rw [ran] at accepted judged
        cases accepted
        exact .reply classified length exitReply judged
      · rw [ran] at refused kept
        exact .dropped refused kept
    · cases ran
      exact .dropped (fun _ h => nomatch h) (Finset.Subset.refl _)

/-! ## Every run of a reader -/

theorem classify_whole (h : classify packet = some (info, none)) :
    parsePacketInfo packet = some info := by
  unfold classify at h
  split at h
  · next parsed =>
    cases h
    exact parsed
  · obtain ⟨f, _, hf⟩ := Option.map_eq_some_iff.mp h
    cases hf

theorem classify_fragment (h : classify packet = some (info, some f)) :
    parseIpv6Fragment packet = some f ∧ f.info = info := by
  unfold classify at h
  split at h
  · cases h
  · obtain ⟨f', parsed, hf⟩ := Option.map_eq_some_iff.mp h
    cases hf
    exact ⟨parsed, rfl⟩

/-- A key the last stage leaves recorded was there before, or is the key of the
first fragment it let through. -/
theorem Judged.recorded (h : Judged v c info verdict ipFragment v') (member : key ∈ v'.allowed) :
    key ∈ v.allowed ∨ ∃ f, ipFragment = some f ∧ f.first = true ∧ f.key = key ∧ verdict := by
  cases h with
  | whole _ => exact .inl member
  | @first f first hv =>
    rcases FragmentVerdicts.mem_allow member with same | older
    · exact .inr ⟨f, rfl, first, same.symm, hv⟩
    · exact .inl older
  | later _ _ => exact .inl (v.expire_subset c.now member)

/-- Every recorded key was recorded by an accepted first fragment. -/
theorem run_recorded (run : Run inboundStep .empty h v) :
    ∀ key ∈ v.allowed, ∃ e ∈ h, Records e key := by
  induction run with
  | nil => intro key member; cases member
  | @snoc h v v' c out _ step ih =>
    intro key member
    have kept : key ∈ v.allowed → ∃ e ∈ h ++ [⟨v, c, out, v'⟩], Records e key := by
      intro older
      obtain ⟨e, recorded, records⟩ := ih key older
      exact ⟨e, List.mem_append_left _ recorded, records⟩
    have last : Entry.mk v c out v' ∈ h ++ [⟨v, c, out, v'⟩] := mem_snoc
    cases inboundStep_cases step with
    | transit => exact kept member
    | dropped _ subset => exact kept (subset member)
    | mesh classified _ _ _ judged =>
      rcases judged.recorded member with older | ⟨f, rfl, first, same, allows⟩
      · exact kept older
      · obtain ⟨_, rfl⟩ := classify_fragment classified
        exact ⟨_, last, f, classified, first, same, rfl, .inl allows⟩
    | reply classified _ _ judged =>
      rcases judged.recorded member with older | ⟨f, rfl, first, same, admitted⟩
      · exact kept older
      · obtain ⟨_, rfl⟩ := classify_fragment classified
        exact ⟨_, last, f, classified, first, same, rfl, .inr admitted⟩

theorem Judged.passed (recorded : ∀ key ∈ v.allowed, ∃ e ∈ h, Records e key)
    (classified : classify c.packet = some (info, ipFragment))
    (judged : Judged v c info verdict ipFragment v') : Passed h c info verdict := by
  cases judged with
  | whole hv => exact .whole classified hv
  | first first hv => exact .first classified first hv
  | later later member =>
    obtain ⟨e, inHistory, records⟩ := recorded _ member
    exact .later classified later inHistory records

/-! ## The three authorizations exclude each other -/

theorem srcOk_cases (h : srcOk info peer = true) :
    info.srcIp = .v6 peer.ipv6 ∨
      (info.srcIp = .v4 wireClientAddr ∧ isTransitable info.dstIp = true) := by
  simpa [srcOk] using h

theorem not_exitReply_of_meshDelivery (mesh : MeshDelivery h c info) : ¬ExitReply h c info := by
  intro reply
  have outside := not_overlay_of_transitable reply.source
  rw [mesh.source, InboundPeer.ipv6, deriveIpv6_overlay] at outside
  cases outside

theorem not_exitReply_of_exitTransit (transit : ExitTransit c info) : ¬ExitReply h c info := by
  intro reply
  have source := reply.source
  rcases transit.source with mesh | wire
  · have outside := not_overlay_of_transitable source
    rw [mesh, InboundPeer.ipv6, deriveIpv6_overlay] at outside
    cases outside
  · rw [wire] at source
    cases source

theorem not_exitTransit_of_meshDelivery (mesh : MeshDelivery h c info) : ¬ExitTransit c info := by
  intro transit
  have outside := transit.destination
  rw [mesh.destination] at outside
  cases outside

/-- Inbound authorization: whatever a reader accepts, after any run of it and in
any state of the firewall and the exit, is authorized. -/
theorem accept_authorized {h : List InboundEntry} {v v' : FragmentVerdicts} {c : InboundCall}
    {info : PacketInfo} (run : Run inboundStep .empty h v)
    (step : inboundStep v c (.accept info) v') : Authorized h c info := by
  have recorded := run_recorded run
  have parsed : ∀ {ipFragment}, classify c.packet = some (info, ipFragment) →
      parsePacketInfo c.packet = some info ∨
        ∃ f, parseIpv6Fragment c.packet = some f ∧ f.info = info := by
    intro ipFragment classified
    cases ipFragment with
    | none => exact .inl (classify_whole classified)
    | some f => exact .inr ⟨f, classify_fragment classified⟩
  cases inboundStep_cases step with
  | transit classified length ok outside permitted =>
    have transit : ExitTransit c info := by
      simp only [transitPermitted, Bool.and_eq_true, Bool.not_eq_true'] at permitted
      obtain ⟨⟨⟨allowed, transitable⟩, offLink⟩, notSelf⟩ := permitted
      refine ⟨outside, allowed, transitable, offLink, notSelf, ?_⟩
      rcases srcOk_cases ok with mesh | ⟨wire, _⟩
      · exact .inl mesh
      · exact .inr wire
    exact ⟨length, parsed classified, .inr (.inl
      ⟨fun mesh => not_exitTransit_of_meshDelivery mesh transit, transit,
        not_exitReply_of_exitTransit transit⟩)⟩
  | mesh classified length ok overlay judged =>
    have mesh : MeshDelivery h c info := by
      refine ⟨?_, overlay, judged.passed recorded classified⟩
      rcases srcOk_cases ok with mesh | ⟨_, transitable⟩
      · exact mesh
      · rw [not_overlay_of_transitable transitable] at overlay
        cases overlay
    exact ⟨length, parsed classified, .inl
      ⟨mesh, not_exitTransit_of_meshDelivery mesh, not_exitReply_of_meshDelivery mesh⟩⟩
  | reply classified length exitReply judged =>
    have reply : ExitReply h c info := by
      simp only [exitReturn, dstIsMe, Bool.and_eq_true, Bool.or_eq_true, beq_iff_eq,
        Option.any_eq_true] at exitReply
      obtain ⟨⟨selected, source⟩, destination⟩ := exitReply
      exact ⟨selected, source, destination, judged.passed recorded classified⟩
    exact ⟨length, parsed classified, .inr (.inr
      ⟨fun mesh => not_exitReply_of_meshDelivery mesh reply,
        fun transit => not_exitReply_of_exitTransit transit reply, reply⟩)⟩
  | dropped refused _ => exact absurd rfl (refused info)

/-! ## A fragmented datagram -/

/-- The step that makes a call. -/
def InboundCall.exec (c : InboundCall) (v : FragmentVerdicts) : InboundEntry :=
  let result := evaluateInbound c.packet c.fw c.exit c.peer c.sshPort c.now v
  ⟨v, c, result.1, result.2.2⟩

theorem InboundCall.exec_step (c : InboundCall) (v : FragmentVerdicts) :
    inboundStep v c (c.exec v).out (c.exec v).after :=
  ⟨_, rfl⟩

/-- One fragment of a UDP datagram to port 53: the bytes that say its offset, and
its payload. -/
def udpFragment (offset : Bytes) (payload : Bytes) (now : Nat) : InboundCall where
  packet := [0x60, 0, 0, 0, 0, 16, 44, 64] ++ [2, 0, 0, 0, 0, 0, 0, 0, 0, 0, 0, 0, 0, 0, 0, 1] ++
    [2, 0, 0, 0, 0, 0, 0, 0, 0, 0, 0, 0, 0, 0, 0, 2] ++ [17, 0] ++ offset ++ [0, 0, 0, 7] ++ payload
  fw := ⟨⟨.allow, .allow, false, false, []⟩, fun _ => none⟩
  exit := ⟨⟨fun _ => none, [], [], []⟩, ⟨none⟩, deriveIpv6 2⟩
  peer := ⟨0, 1, "net", fun _ => true⟩
  sshPort := 22
  now := now

def firstFragment : InboundEntry :=
  (udpFragment [0, 1] [3, 232, 0, 53, 0, 24, 0, 0] 1).exec .empty

def laterFragment : InboundEntry :=
  (udpFragment [0, 8] [1, 2, 3, 4, 5, 6, 7, 8] 2).exec firstFragment.after

/-- A later fragment accepted after its first is authorized. -/
theorem accept_authorized_laterFragment :
    ∃ info, laterFragment.out = .accept info ∧
      Authorized [firstFragment] laterFragment.act info := by
  have run : Run inboundStep .empty [firstFragment] firstFragment.after :=
    .snoc .nil (InboundCall.exec_step _ _)
  have step := (udpFragment [0, 8] [1, 2, 3, 4, 5, 6, 7, 8] 2).exec_step firstFragment.after
  have accepted : laterFragment.out = .accept
      ⟨.v6 (deriveIpv6 1), .v6 (deriveIpv6 2), 44, 0, 0, 0, 0, 0, 48⟩ := by decide
  exact ⟨_, accepted, accept_authorized run (accepted ▸ step)⟩

end Rayfish
