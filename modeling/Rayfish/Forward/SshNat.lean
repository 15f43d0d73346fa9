import Rayfish.Forward.Inbound
import Rayfish.Lib.OnesComplement

/-!
# The port translation of mesh SSH

`rewriteSshPort` (`forward.rs`) moves packets for this node's mesh SSH port to the port the
embedded server listens on, and its replies back. `ssh_nat_transparent` says that a packet
either stays as it is or has one port and its TCP checksum changed, that the peer sees the
reverse of the four-tuple it sent, and that nothing for the mesh SSH port reaches the host
past the translation: not in fragments, and not cut off.
-/

namespace Rayfish

open Lib

/-! ## The translation -/

structure SshNat where
  active : Bool
  /-- The hash of this node's identity, cut to fifteen bytes. -/
  digest : BitVec 120
  listenPort : UInt16
  meshPort : UInt16

def SshNat.v6 (nat : SshNat) : Ipv6Addr := deriveIpv6 nat.digest

def SshNat.isOurs (nat : SshNat) (ip : IpAddr) : Bool := ip == .v6 nat.v6

section

variable (registered : Option SshNat) (pkt : Bytes) (info : PacketInfo) (inbound : Bool)

/-- The port of the registered translation, active or not; 22 before one is registered. -/
def sshPort : UInt16 := (registered.map (·.meshPort)).getD 22

/-- The translation, or `none` when unset or inactive. -/
def sshNat : Option SshNat := registered.filter (·.active)

def csumReplace2 (check old new : UInt16) : UInt16 := replaceWord check old new

inductive SshRewrite where
  | untouched
  | rewritten
  | truncated
  deriving DecidableEq, Repr

/-- The offset of the port to change, its value and the new one. -/
def SshNat.target (nat : SshNat) (info : PacketInfo) (inbound : Bool) :
    Option (Nat × UInt16 × UInt16) :=
  let ihl := info.transportOffset
  if inbound then
    if !nat.isOurs info.dstIp || info.dstPort != nat.meshPort then none
    else some (ihl + 2, nat.meshPort, nat.listenPort)
  else
    if !nat.isOurs info.srcIp || info.srcPort != nat.listenPort then none
    else some (ihl, nat.listenPort, nat.meshPort)

def rewriteSshPort : SshRewrite × Bytes :=
  match sshNat registered with
  | none => (.untouched, pkt)
  | some nat =>
    if info.protocol != 6 then (.untouched, pkt)
    else
      match nat.target info inbound with
      | none => (.untouched, pkt)
      | some (portOff, old, new) =>
        if pkt.length < info.transportOffset + 18 then (.truncated, pkt)
        else
          let pkt := setWord pkt portOff new
          let ckOff := info.transportOffset + 16
          (.rewritten, setWord pkt ckOff (csumReplace2 (word pkt ckOff) old new))

/-- The translation where a packet passes it: before the peer's reader delivers it, and in
`prepare_datagrams` before it is sent. A truncated packet is dropped. -/
def translateSsh : Option Bytes :=
  match sshNat registered with
  | none => some pkt
  | some nat =>
    let candidate := if inbound then info.dstPort == nat.meshPort
      else info.srcPort == nat.listenPort
    if info.protocol == 6 && candidate then
      match rewriteSshPort registered pkt info inbound with
      | (.truncated, _) => none
      | (_, pkt) => some pkt
    else some pkt

/-- What the reader writes to the TUN for a packet to an overlay address. -/
def tunWrite (mtu : Nat) (packet : Bytes) : InboundDecision → Option Bytes
  | .accept info =>
    if packet.length > mtu then none else translateSsh registered packet info true
  | _ => none

/-! ## What is asked of it -/

/-- One port and the TCP checksum changed, and the checksum is right if it was. `base` is
what the checksum counts besides the bytes at hand: the pseudo-header, and the rest of the
segment when these are its first fragment. `total` is where the segment ends. -/
structure PortMoved (pkt pkt' : Bytes) (off portOff : Nat) (new : UInt16) : Prop where
  length : pkt'.length = pkt.length
  port : word pkt' portOff = new
  rest : ∀ i, (i < portOff ∨ portOff + 2 ≤ i) → (i < off + 16 ∨ off + 18 ≤ i) → pkt'[i]? = pkt[i]?
  checks : ∀ base total, 0 < base → off + 18 ≤ total → total ≤ pkt.length →
    fold (base + wordSum ((pkt.take total).drop off)) = 0 →
    fold (base + wordSum ((pkt'.take total).drop off)) = 0

/-- Untouched, or moved between the mesh port and the listening port. -/
def SshMoved (pkt' : Bytes) : SshRewrite → Prop
  | .rewritten => ∃ nat, sshNat registered = some nat ∧
    if inbound then
      PortMoved pkt pkt' info.transportOffset (info.transportOffset + 2) nat.listenPort
    else PortMoved pkt pkt' info.transportOffset info.transportOffset nat.meshPort
  | _ => pkt' = pkt

/-- The two ends and their ports, the other way round. -/
structure Reverse (info reply : PacketInfo) : Prop where
  srcIp : reply.srcIp = info.dstIp
  dstIp : reply.dstIp = info.srcIp
  srcPort : reply.srcPort = info.dstPort
  dstPort : reply.dstPort = info.srcPort

/-- How a reply of the listening server leaves: translated, as the answer to `info`, or not at
all when it is cut off before its checksum. -/
def AnswersAs (reply : Bytes) (replyInfo : PacketInfo) : Prop :=
  (translateSsh registered reply replyInfo false = none ∧
      reply.length < replyInfo.transportOffset + 18) ∨
    ∃ sent sentInfo ipFragment, translateSsh registered reply replyInfo false = some sent ∧
      classify sent = some (sentInfo, ipFragment) ∧ Reverse info sentInfo

end

/-- A packet written to the TUN for an overlay address is no fragment of one to the mesh SSH
port, and if it is for that port it went through the translation. -/
structure SshGuarded (registered : Option SshNat) (h : List InboundEntry) (packet q : Bytes)
    (info : PacketInfo) (ipFragment : Option Ipv6Fragment) : Prop where
  first : ∀ f, ipFragment = some f → f.first = true →
    isSshFragment info (sshPort registered) = false
  later : ∀ f, ipFragment = some f → f.first = false →
    ∃ e ∈ h, Records e f.key ∧ ∀ g, classify e.act.packet = some (g.info, some g) →
      isSshFragment g.info e.act.sshPort = false
  moved : ∀ nat, sshNat registered = some nat → info.dstIp = .v6 nat.v6 → info.protocol = 6 →
    info.dstPort = nat.meshPort → info.transportOffset + 18 ≤ packet.length ∧
      PortMoved packet q info.transportOffset (info.transportOffset + 2) nat.listenPort

variable {registered : Option SshNat} {nat : SshNat} {pkt pkt' p q : Bytes}
  {info : PacketInfo} {inbound : Bool} {ipFragment : Option Ipv6Fragment}

/-! ## One rewrite -/

variable {new : UInt16} {v v' : FragmentVerdicts} {f : Ipv6Fragment} {c : InboundCall}

theorem SshNat.target_some (h : nat.target info inbound = some (portOff, old, new)) :
    if inbound then info.dstIp = .v6 nat.v6 ∧ info.dstPort = nat.meshPort ∧
      portOff = info.transportOffset + 2 ∧ old = nat.meshPort ∧ new = nat.listenPort
    else info.srcIp = .v6 nat.v6 ∧ info.srcPort = nat.listenPort ∧
      portOff = info.transportOffset ∧ old = nat.listenPort ∧ new = nat.meshPort := by
  cases inbound
  all_goals
    simp only [target, Bool.false_eq_true, if_true, if_false] at h ⊢
    split at h
    · cases h
    next ours =>
    cases h
    simp only [Bool.or_eq_true, Bool.not_eq_true', bne_iff_ne, not_or, not_not,
      Bool.not_eq_false, isOurs, beq_iff_eq] at ours
    exact ⟨ours.1, ours.2, rfl, rfl, rfl⟩

/-- Everything `rewriteSshPort` can do. -/
theorem rewriteSshPort_cases (h : rewriteSshPort registered pkt info inbound = (out, pkt')) :
    (out ≠ .rewritten ∧ pkt' = pkt) ∨
      (out = .rewritten ∧ ∃ nat portOff old new, sshNat registered = some nat ∧
        info.protocol = 6 ∧ nat.target info inbound = some (portOff, old, new) ∧
        info.transportOffset + 18 ≤ pkt.length ∧
        pkt' = setWord (setWord pkt portOff new) (info.transportOffset + 16)
          (csumReplace2 (word (setWord pkt portOff new) (info.transportOffset + 16)) old new)) := by
  unfold rewriteSshPort at h
  split at h
  · cases h
    exact .inl ⟨nofun, rfl⟩
  next nat active =>
  split at h
  · cases h
    exact .inl ⟨nofun, rfl⟩
  next tcp =>
  split at h
  · cases h
    exact .inl ⟨nofun, rfl⟩
  next portOff old new target =>
  split at h
  · cases h
    exact .inl ⟨nofun, rfl⟩
  cases h
  exact .inr ⟨rfl, nat, portOff, old, new, active, by simpa using tcp, target, by omega, rfl⟩

/-- Moving a port at an even place before the checksum. -/
theorem portMoved_setWord (even : Even i) (early : i + 2 ≤ 16) (long : off + 18 ≤ pkt.length)
    (port : word pkt (off + i) = old) :
    PortMoved pkt (setWord (setWord pkt (off + i) new) (off + 16)
      (csumReplace2 (word (setWord pkt (off + i) new) (off + 16)) old new)) off (off + i) new := by
  have inside : off + i + 2 ≤ pkt.length := by omega
  have inside' : off + 16 + 2 ≤ (setWord pkt (off + i) new).length := by
    rw [length_setWord inside]
    exact long
  refine ⟨?_, ?_, ?_, ?_⟩
  · rw [length_setWord inside', length_setWord inside]
  · rw [word_setWord_of_ne inside' (.inl (by omega)), word_setWord inside]
  · intro j apart apart'
    rw [getElem?_setWord_of_ne inside' apart', getElem?_setWord_of_ne inside apart]
  · intro base total based fits ends checks
    have length : ((pkt.take total).drop off).length = total - off := by
      rw [List.length_drop, List.length_take_of_le ends]
    have seg : ∀ j, j + 2 ≤ 18 → word ((pkt.take total).drop off) j = word pkt (off + j) := by
      intro j kept
      rw [word_drop, word_take (by omega)]
    rw [word_setWord_of_ne inside (.inr (by omega)), csumReplace2, ← port, ← seg i (by omega),
      ← seg 16 (by omega), take_setWord (by omega) (by rwa [length_setWord inside]),
      take_setWord (by omega) ends, drop_setWord, drop_setWord]
    · exact fold_replace even (by decide) (by omega) (by omega) (.inr early) based checks
    · rw [List.length_take_of_le ends]
      omega
    · rw [length_setWord (by rw [List.length_take_of_le ends]; omega),
        List.length_take_of_le ends]
      exact fits

/-- The parser reads every field from the offset it reports. -/
theorem info_of_classify (h : classify p = some (info, ipFragment)) :
    info = packetInfo p info.protocol info.transportOffset info.srcIp info.dstIp := by
  cases ipFragment with
  | none =>
    rcases parsePacketInfo_some (classify_whole h) with ⟨_, parsed⟩ | ⟨_, parsed⟩
    · obtain ⟨_, _, _, _, rfl⟩ := parseIpv4_some parsed
      rfl
    · obtain ⟨_, _, _, _, _, rfl⟩ := parseIpv6_some parsed
      rfl
  | some f =>
    obtain ⟨parsed, rfl⟩ := classify_fragment h
    obtain ⟨_, _, _, _, _, _, _, rfl⟩ := parseIpv6Fragment_some parsed
    rfl

theorem port_tcp (fits : off + i + 2 ≤ p.length) : port p 6 off i = word p (off + i) := by
  rw [port, u16OrZero, if_pos fits]
  rfl

theorem ports_of_classify (h : classify p = some (info, ipFragment)) (tcp : info.protocol = 6)
    (long : info.transportOffset + 18 ≤ p.length) :
    word p info.transportOffset = info.srcPort ∧
      word p (info.transportOffset + 2) = info.dstPort := by
  have read := info_of_classify h
  rw [tcp] at read
  have src : info.srcPort = port p 6 info.transportOffset 0 := congrArg PacketInfo.srcPort read
  have dst : info.dstPort = port p 6 info.transportOffset 2 := congrArg PacketInfo.dstPort read
  exact ⟨(src.trans (port_tcp (by omega))).symm, (dst.trans (port_tcp (by omega))).symm⟩

theorem rewrite_moved (registered : Option SshNat) (inbound : Bool)
    (h : classify pkt = some (info, ipFragment)) :
    SshMoved registered pkt info inbound (rewriteSshPort registered pkt info inbound).2
      (rewriteSshPort registered pkt info inbound).1 := by
  rcases out : rewriteSshPort registered pkt info inbound with ⟨outcome, pkt'⟩
  rcases rewriteSshPort_cases out with ⟨kept, rfl⟩ |
    ⟨rfl, nat, portOff, old, new, active, tcp, target, long, rfl⟩
  · cases outcome with
    | untouched | truncated => rfl
    | rewritten => exact absurd rfl kept
  · refine ⟨nat, active, ?_⟩
    obtain ⟨src, dst⟩ := ports_of_classify h tcp long
    have moved := SshNat.target_some target
    cases inbound with
    | true =>
      obtain ⟨_, port, rfl, rfl, rfl⟩ := moved
      exact portMoved_setWord even_two (by decide) long (dst.trans port)
    | false =>
      obtain ⟨_, port, rfl, rfl, rfl⟩ := moved
      exact portMoved_setWord (i := 0) (by decide) (by decide) long (src.trans port)

/-! ## Reading a moved packet -/

/-- The walk to a TCP header reads only bytes before it. -/
theorem ipv6Chain_tcp (chained : ipv6Chain p = some chain) (long : 40 ≤ p.length)
    (tcp : chain.protocol = 6) (below : ∀ i < chain.offset, q[i]? = p[i]?)
    (fits : chain.offset < q.length) :
    ipv6Chain q = some chain := by
  obtain ⟨n, prev, off, kind, fragment, limit, at', stop⟩ := headerAt_of_chain chained long
  obtain ⟨rfl, rfl⟩ : kind = 6 ∧ chain = ⟨6, off, fragment⟩ := by
    rcases chainStep_cases stop with
      ⟨_, _, header, _, ⟨_, same⟩ | ⟨_, same⟩⟩ | ⟨_, _, same, _⟩ | ⟨same, _⟩
    · cases same
      cases tcp
    · cases same
    · cases same
    · cases same
      exact ⟨tcp, by rw [← tcp]⟩
  obtain ⟨before, _, _, named⟩ := at'.bounds
  have moved : HeaderAt q n prev off 6 fragment :=
    at'.transfer (fun i hi _ _ _ => below i hi) ((below prev before).trans named) fits
  exact chain_of_headerAt moved rfl limit

/-- The fragment a chain makes of a packet. -/
def fragmentOf (p : Bytes) (info : PacketInfo) (chain : Ipv6Chain) : Option Ipv6Fragment :=
  chain.fragment.map fun header =>
    ⟨info, ⟨ipv6At p 8, ipv6At p 24, header.id⟩, header.offset == 0⟩

theorem chain_of_classify (h : classify p = some (info, ipFragment)) (v6 : ipVersion p = 6) :
    40 ≤ p.length ∧ ∃ chain, ipv6Chain p = some chain ∧
      info = packetInfo p chain.protocol chain.offset (.v6 (ipv6At p 8)) (.v6 (ipv6At p 24)) ∧
      ipFragment = fragmentOf p info chain ∧
      ∀ header, chain.fragment = some header → header.offset = 0 →
        carriesUpperHeader p chain.protocol chain.offset = true := by
  cases ipFragment with
  | none =>
    have parsed := classify_whole h
    rw [parsePacketInfo_v6 v6] at parsed
    obtain ⟨long, chain, chained, unfragmented, _, read⟩ := parseIpv6_some parsed
    refine ⟨long, chain, chained, read, ?_, fun header fragmented => ?_⟩
    · rw [fragmentOf, unfragmented]
      rfl
    · rw [unfragmented] at fragmented
      cases fragmented
  | some f =>
    obtain ⟨parsed, rfl⟩ := classify_fragment h
    obtain ⟨long, _, chain, header, chained, fragmented, carries, rfl⟩ :=
      parseIpv6Fragment_some parsed
    refine ⟨long, chain, chained, rfl, ?_, fun header' fragmented' => ?_⟩
    · rw [fragmentOf, fragmented]
      rfl
    · rw [fragmented] at fragmented'
      cases fragmented'
      exact carries

theorem classify_of_chain (long : 40 ≤ q.length) (v6 : ipVersion q = 6)
    (chained : ipv6Chain q = some chain) (ports : chain.offset + 4 ≤ q.length)
    (carries : ∀ header, chain.fragment = some header → header.offset = 0 →
      carriesUpperHeader q chain.protocol chain.offset = true) :
    let info := packetInfo q chain.protocol chain.offset (.v6 (ipv6At q 8)) (.v6 (ipv6At q 24))
    classify q = some (info, fragmentOf q info chain) := by
  intro info
  have fits : ¬((chain.protocol = 6 ∨ chain.protocol = 17) ∧ q.length < chain.offset + 4) :=
    fun cut => absurd ports (by omega)
  cases fragmented : chain.fragment with
  | none =>
    have parsed : parsePacketInfo q = some info := by
      rw [parsePacketInfo_v6 v6, parseIpv6, if_neg (by omega), ipv6UpperLayer, chained,
        Option.bind_some, fragmented]
      exact if_neg fits
    rw [classify, parsed, fragmentOf, fragmented]
    rfl
  | some header =>
    have refused : parsePacketInfo q = none := by
      rw [parsePacketInfo_v6 v6, parseIpv6, if_neg (by omega), ipv6UpperLayer, chained,
        Option.bind_some, fragmented]
      rfl
    have whole : ¬((header.offset == 0 && !carriesUpperHeader q chain.protocol chain.offset) =
        true) := by
      simp only [Bool.and_eq_true, beq_iff_eq, Bool.not_eq_true', not_and, Bool.not_eq_false]
      exact carries header fragmented
    have parsed : parseIpv6Fragment q =
        some ⟨info, ⟨ipv6At q 8, ipv6At q 24, header.id⟩, header.offset == 0⟩ := by
      have shaped : ¬(q.length < 40 ∨ ipVersion q ≠ 6) := fun bad =>
        bad.elim (Nat.not_lt.mpr long) (absurd v6)
      rw [parseIpv6Fragment, if_neg shaped, chained, Option.bind_some, fragmented]
      exact if_neg whole
    rw [classify, refused, parsed, fragmentOf, fragmented]
    rfl

theorem ipv6At_below (below : ∀ j < n, q[j]? = p[j]?) (fits : i + 16 ≤ n) :
    ipv6At q i = ipv6At p i := by
  apply ipv6At_congr
  apply List.ext_getElem?
  intro j
  simp only [List.getElem?_take, List.getElem?_drop]
  split
  · exact below _ (by omega)
  · rfl

/-- A moved packet is read as before, but for its ports. -/
theorem classify_moved (h : classify p = some (info, ipFragment)) (v6 : ipVersion p = 6)
    (tcp : info.protocol = 6) (long : info.transportOffset + 18 ≤ p.length)
    (moved : PortMoved p q info.transportOffset portOff new)
    (early : portOff + 2 ≤ info.transportOffset + 4) (late : info.transportOffset ≤ portOff) :
    ∃ info', classify q = some (info', ipFragment.map fun f => { f with info := info' }) ∧
      info'.srcIp = info.srcIp ∧ info'.dstIp = info.dstIp ∧
      info'.srcPort = word q info.transportOffset ∧
      info'.dstPort = word q (info.transportOffset + 2) := by
  obtain ⟨header, chain, chained, rfl, rfl, carries⟩ := chain_of_classify h v6
  change chain.offset + 18 ≤ p.length at long
  change chain.protocol = 6 at tcp
  have off := walk_forward chained
  have below : ∀ i < chain.offset, q[i]? = p[i]? := fun i before =>
    moved.rest i (.inl (Nat.lt_of_lt_of_le before late)) (.inl (Nat.lt_add_right 16 before))
  have length : q.length = p.length := moved.length
  have chained' : ipv6Chain q = some chain := ipv6Chain_tcp chained header tcp below (by omega)
  have version : ipVersion q = 6 := by
    rw [ipVersion, byte_eq_of_getElem? (below 0 (by omega))]
    exact v6
  have dataOffset : q[chain.offset + 12]? = p[chain.offset + 12]? := by
    change portOff + 2 ≤ chain.offset + 4 at early
    exact moved.rest _ (.inr (by omega)) (.inl (Nat.add_lt_add_left (by decide) _))
  have carries' : ∀ header, chain.fragment = some header → header.offset = 0 →
      carriesUpperHeader q chain.protocol chain.offset = true := by
    intro header fragmented first
    rw [← carries header fragmented first, carriesUpperHeader, carriesUpperHeader,
      upperHeaderLen, upperHeaderLen, dataOffset, length]
  refine ⟨packetInfo q chain.protocol chain.offset (.v6 (ipv6At p 8)) (.v6 (ipv6At p 24)),
    ?_, rfl, rfl, ?_, ?_⟩
  · rw [classify_of_chain (by omega) version chained' (by omega) carries', fragmentOf, fragmentOf,
      Option.map_map, ipv6At_below below (by omega), ipv6At_below below (by omega)]
    rfl
  · show port q chain.protocol chain.offset 0 = _
    rw [tcp, port_tcp (by omega)]
    rfl
  · show port q chain.protocol chain.offset 2 = _
    rw [tcp, port_tcp (by omega)]
    rfl

theorem version_of_v6 (h : classify p = some (info, ipFragment))
    (v6 : info.srcIp = .v6 ip ∨ info.dstIp = .v6 ip) : ipVersion p = 6 := by
  cases ipFragment with
  | none =>
    rcases parsePacketInfo_some (classify_whole h) with ⟨_, parsed⟩ | ⟨version, _⟩
    · obtain ⟨_, _, _, _, rfl⟩ := parseIpv4_some parsed
      rcases v6 with v6 | v6 <;> cases v6
    · exact version
  | some f =>
    obtain ⟨parsed, _⟩ := classify_fragment h
    exact (parseIpv6Fragment_some parsed).2.1

theorem PortMoved.word_kept (moved : PortMoved p q off portOff new)
    (apart : j + 2 ≤ portOff ∨ portOff + 2 ≤ j) (early : j + 2 ≤ off + 16) : word q j = word p j :=
  word_eq_of_getElem? (moved.rest j (by omega) (.inl (by omega)))
    (moved.rest (j + 1) (by omega) (.inl (by omega)))

/-! ## Both directions -/

theorem SshNat.target_inbound (ours : info.dstIp = .v6 nat.v6)
    (port : info.dstPort = nat.meshPort) :
    nat.target info true = some (info.transportOffset + 2, nat.meshPort, nat.listenPort) := by
  simp [target, isOurs, ours, port]

theorem SshNat.target_outbound (ours : info.srcIp = .v6 nat.v6)
    (port : info.srcPort = nat.listenPort) :
    nat.target info false = some (info.transportOffset, nat.listenPort, nat.meshPort) := by
  simp [target, isOurs, ours, port]

/-- A packet of the translated connection is rewritten, or is cut off and dropped. -/
theorem translateSsh_of_target (pkt : Bytes) (active : sshNat registered = some nat)
    (tcp : info.protocol = 6) (targeted : nat.target info inbound = some target) :
    (translateSsh registered pkt info inbound = none ∧
        pkt.length < info.transportOffset + 18) ∨
      (info.transportOffset + 18 ≤ pkt.length ∧
        (rewriteSshPort registered pkt info inbound).1 = .rewritten ∧
        translateSsh registered pkt info inbound =
          some (rewriteSshPort registered pkt info inbound).2) := by
  have candidate : (if inbound then info.dstPort == nat.meshPort
      else info.srcPort == nat.listenPort) = true := by
    have read := SshNat.target_some targeted
    cases inbound with
    | true | false => exact beq_iff_eq.mpr read.2.1
  simp only [translateSsh, rewriteSshPort, active, tcp, targeted, candidate]
  by_cases long : pkt.length < info.transportOffset + 18
  · exact .inl ⟨by simp [long], long⟩
  · exact .inr ⟨Nat.not_lt.mp long, by simp [long], by simp [long]⟩

theorem moved_of_rewritten (h : classify pkt = some (info, ipFragment))
    (active : sshNat registered = some nat)
    (out : (rewriteSshPort registered pkt info inbound).1 = .rewritten) :
    if inbound then
      PortMoved pkt (rewriteSshPort registered pkt info inbound).2 info.transportOffset
        (info.transportOffset + 2) nat.listenPort
    else PortMoved pkt (rewriteSshPort registered pkt info inbound).2 info.transportOffset
      info.transportOffset nat.meshPort := by
  have moved := rewrite_moved registered inbound h
  rw [out] at moved
  obtain ⟨nat', active', moved⟩ := moved
  rw [active] at active'
  cases active'
  exact moved

/-- The peer sees the reverse of the four-tuple it sent. -/
theorem answers_of_rewritten (h : classify pkt = some (info, none))
    (out : (rewriteSshPort registered pkt info true).1 = .rewritten) :
    ∃ info', classify (rewriteSshPort registered pkt info true).2 = some (info', none) ∧
      ∀ reply replyInfo fragment, classify reply = some (replyInfo, fragment) →
        replyInfo.protocol = 6 → Reverse info' replyInfo →
        AnswersAs registered info reply replyInfo := by
  rcases rewriteSshPort_cases (rfl : rewriteSshPort registered pkt info true = _) with
    ⟨kept, _⟩ | ⟨_, nat, _, _, _, active, tcp, target, long, _⟩
  · exact absurd out kept
  obtain ⟨ours, meshPort, _⟩ := SshNat.target_some target
  have moved := moved_of_rewritten h active out
  obtain ⟨info', classified, srcIp, dstIp, srcPort, dstPort⟩ :=
    classify_moved h (version_of_v6 h (.inr ours)) tcp long moved le_rfl (Nat.le_add_right _ 2)
  refine ⟨info', classified, ?_⟩
  intro reply replyInfo fragment replied replyTcp reverse
  have own : replyInfo.srcIp = .v6 nat.v6 := reverse.srcIp.trans (dstIp.trans ours)
  have listening : replyInfo.srcPort = nat.listenPort :=
    reverse.srcPort.trans (dstPort.trans moved.port)
  have peerPort : replyInfo.dstPort = info.srcPort := by
    rw [reverse.dstPort, srcPort, moved.word_kept (.inl le_rfl) (by omega)]
    exact (ports_of_classify h tcp long).1
  rcases translateSsh_of_target reply active replyTcp
    (SshNat.target_outbound own listening) with dropped | ⟨fits, rewritten, sent⟩
  · exact .inl dropped
  · have movedBack := moved_of_rewritten replied active rewritten
    obtain ⟨sentInfo, sentClassified, sentSrc, sentDst, sentSrcPort, sentDstPort⟩ :=
      classify_moved replied (version_of_v6 replied (.inl own)) replyTcp fits movedBack
        (Nat.add_le_add_left (by decide) _) le_rfl
    refine .inr ⟨_, sentInfo, _, sent, sentClassified, ?_, ?_, ?_, ?_⟩
    · rw [sentSrc, own, ours]
    · rw [sentDst, reverse.dstIp, srcIp]
    · rw [sentSrcPort, movedBack.port, meshPort]
    · rw [sentDstPort, movedBack.word_kept (.inr le_rfl) (by omega),
        (ports_of_classify replied replyTcp fits).2, peerPort]

/-! ## The reader -/

theorem deliver_ssh {fw : Firewall} {peer : InboundPeer} {port : UInt16} {now : Nat}
    {returning : Bool} (first : f.first = true) (ssh : isSshFragment f.info port = true) :
    deliver fw peer port now returning info v (some f) = (.dropFragment, fw, v) := by
  simp [deliver, first, ssh]

/-- A first fragment to the mesh SSH port is dropped, whoever sent it. -/
theorem ssh_first_refused {out : InboundDecision} (step : inboundStep v c out v')
    (classified : classify c.packet = some (info, some f)) (first : f.first = true)
    (overlay : isOverlayIp info.dstIp = true) (ssh : isSshFragment info c.sshPort = true)
    (accepted : PacketInfo) :
    out ≠ .accept accepted := by
  obtain ⟨fw', ran⟩ := step
  obtain ⟨_, rfl⟩ := classify_fragment classified
  simp only [evaluateInbound, classified, overlay, deliver_ssh first ssh, Bool.not_true,
    Bool.false_eq_true, if_false] at ran
  split at ran
  · cases ran
    exact nofun
  split at ran
  · cases ran
    exact nofun
  · split at ran <;> cases ran <;> exact nofun

theorem classify_of_accept (step : inboundStep v c (.accept info) v') :
    ∃ fragment, classify c.packet = some (info, fragment) := by
  cases inboundStep_cases step with
  | transit classified | mesh classified | reply classified => exact ⟨_, classified⟩
  | dropped refused _ => exact absurd rfl (refused info)

theorem dst_of_fragment (h : classify p = some (info, some f)) : info.dstIp = .v6 f.key.dst := by
  obtain ⟨parsed, rfl⟩ := classify_fragment h
  obtain ⟨_, _, _, _, _, _, _, rfl⟩ := parseIpv6Fragment_some parsed
  rfl

/-- A later fragment is accepted after a first one that was not for the SSH port. -/
theorem later_of_accept (run : Run inboundStep .empty h v)
    (step : inboundStep v c (.accept info) v')
    (classified : classify c.packet = some (info, some f)) (later : f.first = false)
    (overlay : isOverlayIp info.dstIp = true) :
    ∃ e ∈ h, Records e f.key ∧ ∀ g, classify e.act.packet = some (g.info, some g) →
      isSshFragment g.info e.act.sshPort = false := by
  have member : f.key ∈ v.allowed := by
    have follows : ∀ {verdict : Prop}, Judged v c info verdict (some f) v' →
        f.key ∈ v.allowed := by
      intro verdict judged
      cases judged with
      | first first => exact absurd first (by rw [later]; exact Bool.false_ne_true)
      | later _ member => exact member
    cases inboundStep_cases step with
    | transit _ _ _ outside =>
      rw [overlay] at outside
      cases outside
    | mesh classified' _ _ _ judged | reply classified' _ _ judged =>
      cases classified.symm.trans classified'
      exact follows judged
    | dropped refused _ => exact absurd rfl (refused info)
  obtain ⟨e, recorded, records⟩ := run_recorded run f.key member
  refine ⟨e, recorded, records, ?_⟩
  intro g classifiedFirst
  obtain ⟨g', classified', first, key, accepted, _⟩ := records
  obtain rfl : g = g' :=
    Option.some.inj (congrArg Prod.snd (Option.some.inj (classifiedFirst.symm.trans classified')))
  have toOverlay : isOverlayIp g.info.dstIp = true := by
    rw [dst_of_fragment classifiedFirst, key, ← dst_of_fragment classified, overlay]
  rw [Bool.eq_false_iff]
  intro ssh
  exact ssh_first_refused (run.entry_step recorded) classifiedFirst first toOverlay ssh _ accepted

/-- What reaches the TUN for an overlay address has not slipped past the translation. -/
theorem written_guarded (run : Run inboundStep .empty h v) (step : inboundStep v c out v')
    (reads : c.sshPort = sshPort registered)
    (written : tunWrite registered mtu c.packet out = some q)
    (classified : classify c.packet = some (info, ipFragment))
    (overlay : isOverlayIp info.dstIp = true) :
    SshGuarded registered h c.packet q info ipFragment := by
  obtain ⟨accepted, rfl⟩ : ∃ accepted, out = .accept accepted := by
    cases out with
    | accept accepted => exact ⟨accepted, rfl⟩
    | _ => cases written
  obtain ⟨fragment, same⟩ := classify_of_accept step
  cases classified.symm.trans same
  refine ⟨?_, ?_, ?_⟩
  · rintro f rfl first
    rw [Bool.eq_false_iff]
    intro ssh
    exact ssh_first_refused step classified first overlay (reads ▸ ssh) _ rfl
  · rintro f rfl later
    exact later_of_accept run step classified later overlay
  · intro nat active ours tcp port
    simp only [tunWrite] at written
    split at written
    · cases written
    rcases translateSsh_of_target c.packet active tcp
      (SshNat.target_inbound ours port) with ⟨dropped, _⟩ | ⟨long, rewritten, sent⟩
    · rw [dropped] at written
      cases written
    · rw [sent] at written
      cases written
      exact ⟨long, moved_of_rewritten classified active rewritten⟩

/-- The translation of mesh SSH is transparent: packets change in one port and the checksum or
not at all, the peer sees the reverse of the four-tuple it sent, and along every run of a
reader nothing for the mesh SSH port is written to the TUN untranslated. -/
theorem ssh_nat_transparent (registered : Option SshNat) :
    (∀ pkt info ipFragment inbound, classify pkt = some (info, ipFragment) →
      SshMoved registered pkt info inbound (rewriteSshPort registered pkt info inbound).2
        (rewriteSshPort registered pkt info inbound).1) ∧
    (∀ pkt info, classify pkt = some (info, none) →
      (rewriteSshPort registered pkt info true).1 = .rewritten →
      ∃ info', classify (rewriteSshPort registered pkt info true).2 = some (info', none) ∧
        ∀ reply replyInfo fragment, classify reply = some (replyInfo, fragment) →
          replyInfo.protocol = 6 → Reverse info' replyInfo →
          AnswersAs registered info reply replyInfo) ∧
    (∀ h v c out v' mtu q info ipFragment, Run inboundStep .empty h v →
      inboundStep v c out v' → c.sshPort = sshPort registered →
      tunWrite registered mtu c.packet out = some q →
      classify c.packet = some (info, ipFragment) → isOverlayIp info.dstIp = true →
      SshGuarded registered h c.packet q info ipFragment) :=
  ⟨fun _ _ _ inbound classified => rewrite_moved registered inbound classified,
    fun _ _ classified out => answers_of_rewritten classified out,
    fun _ _ _ _ _ _ _ _ _ run step reads written classified overlay =>
      written_guarded run step reads written classified overlay⟩

/-- A SYN from port 1000 of peer 1 to the mesh SSH port of node 2. -/
def sshConnect : InboundCall where
  packet := [0x60, 0, 0, 0, 0, 20, 6, 64] ++ [2, 0, 0, 0, 0, 0, 0, 0, 0, 0, 0, 0, 0, 0, 0, 1] ++
    [2, 0, 0, 0, 0, 0, 0, 0, 0, 0, 0, 0, 0, 0, 0, 2] ++
    [3, 232, 0, 22, 0, 0, 0, 0, 0, 0, 0, 0, 0x50, 2, 0, 0, 0xA7, 0xE2, 0, 0]
  fw := ⟨⟨.allow, .allow, false, false, []⟩, fun _ => none⟩
  exit := ⟨⟨fun _ => none, [], [], []⟩, ⟨none⟩, deriveIpv6 2⟩
  peer := ⟨0, 1, "net", fun _ => true⟩
  sshPort := 22
  now := 0

/-- The server's answer, from the port it listens on. -/
def sshAnswer : Bytes :=
  [0x60, 0, 0, 0, 0, 20, 6, 64] ++ [2, 0, 0, 0, 0, 0, 0, 0, 0, 0, 0, 0, 0, 0, 0, 2] ++
    [2, 0, 0, 0, 0, 0, 0, 0, 0, 0, 0, 0, 0, 0, 0, 1] ++
    [0x75, 0x46, 3, 232, 0, 0, 0, 0, 0, 0, 0, 1, 0x50, 0x12, 0, 0, 0x32, 0xA1, 0, 0]

/-- A SYN for the mesh SSH port is delivered to the listening port, checksum and all, and its
answer leaves from the mesh SSH port. -/
theorem ssh_nat_transparent_syn :
    let registered : Option SshNat := some ⟨true, 2, 30022, 22⟩
    let info : PacketInfo := ⟨.v6 (deriveIpv6 1), .v6 (deriveIpv6 2), 6, 1000, 22, 2, 0, 0, 40⟩
    let replyInfo : PacketInfo :=
      ⟨.v6 (deriveIpv6 2), .v6 (deriveIpv6 1), 6, 30022, 1000, 18, 0, 0, 40⟩
    ∃ q, tunWrite registered 1280 sshConnect.packet (sshConnect.exec .empty).out = some q ∧
      SshMoved registered sshConnect.packet info true q .rewritten ∧
      SshGuarded registered [] sshConnect.packet q info none ∧
      AnswersAs registered info sshAnswer replyInfo := by
  intro registered info replyInfo
  obtain ⟨moves, answers, guards⟩ := ssh_nat_transparent registered
  have classified : classify sshConnect.packet = some (info, none) := by decide +kernel
  have rewritten : (rewriteSshPort registered sshConnect.packet info true).1 = .rewritten := by
    decide +kernel
  have written : tunWrite registered 1280 sshConnect.packet (sshConnect.exec .empty).out =
      some (rewriteSshPort registered sshConnect.packet info true).2 := by decide +kernel
  have moved := moves _ _ _ true classified
  obtain ⟨info', classified', answered⟩ := answers _ _ classified rewritten
  have listening : classify (rewriteSshPort registered sshConnect.packet info true).2 =
      some ({ info with dstPort := 30022 }, none) := by decide +kernel
  cases classified'.symm.trans listening
  refine ⟨_, written, moved, ?_, ?_⟩
  · exact guards _ _ _ _ _ _ _ _ _ .nil (sshConnect.exec_step .empty) rfl written classified
      (by decide +kernel)
  · exact answered sshAnswer replyInfo none (by decide +kernel) rfl ⟨rfl, rfl, rfl, rfl⟩

end Rayfish
