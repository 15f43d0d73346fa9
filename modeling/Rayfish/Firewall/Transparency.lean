import Rayfish.Firewall.PacketSpec

/-!
# Extension headers and fragments do not change what the parser reads

Inserting extension headers in front of any header of the chain only moves the
transport header; a whole packet is never also a fragment; and a first fragment
reads like the packet with its Fragment header taken out.
-/

namespace Rayfish

open Lib

variable {p q : Bytes} {n prev off d : Nat} {kind next hi lo : UInt8}
  {fragment : Option FragmentHeader}

/-! ## Edits of a packet -/

/-- An extension header other than Fragment, with the bytes its length byte
declares. -/
structure ExtHeader where
  kind : UInt8
  lenByte : UInt8
  body : Bytes
  supported : kind = ipv6Ah ∨ kind ∈ ipv6TlvExtHeaders
  sized : body.length + 2 =
    if kind = ipv6Ah then (lenByte.toNat + 2) * 4 else (lenByte.toNat + 1) * 8

/-- The kind of the header that follows, `kind` after the last. -/
def firstKind : List ExtHeader → UInt8 → UInt8
  | [], kind => kind
  | header :: _, _ => header.kind

/-- The bytes of a chain of headers in front of a header of kind `kind`. -/
def encodeChain : List ExtHeader → UInt8 → Bytes
  | [], _ => []
  | header :: rest, kind =>
    (firstKind rest kind :: header.lenByte :: header.body) ++ encodeChain rest kind

/-- The first `off` bytes, with the next-header byte at `prev` and the payload
length rewritten. -/
def rename (p : Bytes) (prev off : Nat) (kind hi lo : UInt8) : Bytes :=
  (((p.set prev kind).set 4 hi).set 5 lo).take off

/-- `headers` inserted in front of the header of kind `kind` at `off`, which the
byte at `prev` names; `hi`, `lo` is the new payload length. -/
def insertHeaders (p : Bytes) (prev off : Nat) (kind : UInt8) (headers : List ExtHeader)
    (hi lo : UInt8) : Bytes :=
  rename p prev off (firstKind headers kind) hi lo ++ encodeChain headers kind ++ p.drop off

/-- The 8-byte Fragment header at `off` taken out, and the byte at `prev` that
named it rewritten to the header it named itself. -/
def spliceFragment (p : Bytes) (prev off : Nat) (hi lo : UInt8) : Bytes :=
  rename p prev off (byte p off) hi lo ++ p.drop (off + 8)

def Ipv6Fragment.shift (f : Ipv6Fragment) (d : Nat) : Ipv6Fragment :=
  { f with info := f.info.shift d }

theorem rename_length (h : off ≤ p.length) : (rename p prev off kind hi lo).length = off := by
  simp [rename, h]

theorem rename_getElem? (hi' : i < off) (hp : i ≠ prev) (h4 : i ≠ 4) (h5 : i ≠ 5) :
    (rename p prev off kind hi lo)[i]? = p[i]? := by
  rw [rename, List.getElem?_take_of_lt hi', List.getElem?_set_ne h5.symm,
    List.getElem?_set_ne h4.symm, List.getElem?_set_ne hp.symm]

theorem rename_named (hp : prev < off) (inside : prev < p.length) (h4 : prev ≠ 4)
    (h5 : prev ≠ 5) : (rename p prev off kind hi lo)[prev]? = some kind := by
  rw [rename, List.getElem?_take_of_lt hp, List.getElem?_set_ne h5.symm,
    List.getElem?_set_ne h4.symm, List.getElem?_set_self inside]

section

variable (h : HeaderAt p n prev off kind fragment) (inside : off ≤ p.length)

include h inside

/-- A position of `p` is a position of every packet that starts with its
renamed bytes. -/
theorem HeaderAt.renamed (nonempty : rest ≠ []) :
    HeaderAt (rename p prev off next hi lo ++ rest) n prev off next fragment := by
  obtain ⟨hprev, hoff, hprev', _⟩ := h.bounds
  have len : (rename p prev off next hi lo).length = off := rename_length inside
  refine h.transfer ?_ ?_ ?_
  · intro i hi' hp h4 h5
    rw [List.getElem?_append_left (by omega), rename_getElem? hi' hp h4 h5]
  · rw [List.getElem?_append_left (by omega)]
    exact rename_named hprev (by omega) (by omega) (by omega)
  · rw [List.length_append]
    have := List.length_pos_of_ne_nil nonempty
    omega

/-- The fixed header of a renamed packet: its version and addresses are kept. -/
theorem renamed_fixed (rest : Bytes) :
    ipVersion (rename p prev off next hi lo ++ rest) = ipVersion p ∧
      ipv6At (rename p prev off next hi lo ++ rest) 8 = ipv6At p 8 ∧
      ipv6At (rename p prev off next hi lo ++ rest) 24 = ipv6At p 24 := by
  obtain ⟨hprev, hoff, hprev', _⟩ := h.bounds
  have len : (rename p prev off next hi lo).length = off := rename_length inside
  have same : ∀ i, i < 40 → i ≠ 6 → i ≠ 4 → i ≠ 5 →
      (rename p prev off next hi lo ++ rest)[i]? = p[i]? := by
    intro i hi' h6 h4 h5
    rw [List.getElem?_append_left (by omega), rename_getElem? (by omega) (by omega) h4 h5]
  have block : ∀ i, 8 ≤ i → i ≤ 24 →
      ((rename p prev off next hi lo ++ rest).drop i).take 16 = (p.drop i).take 16 := by
    intro i h8 h24
    apply List.ext_getElem?
    intro j
    simp only [List.getElem?_take, List.getElem?_drop]
    split
    · exact same _ (by omega) (by omega) (by omega) (by omega)
    · rfl
  have first := byte_eq_of_getElem? (same 0 (by omega) (by omega) (by omega) (by omega))
  refine ⟨?_, ipv6At_congr (block 8 (by omega) (by omega)),
    ipv6At_congr (block 24 (by omega) (by omega))⟩
  rw [ipVersion, ipVersion, first]

end

/-! ## Inserted headers -/

theorem chainStep_extHeader (header : ExtHeader) (h : p[off + 1]? = some header.lenByte) :
    chainStep p header.kind off fragment = some (.skip (header.body.length + 2) fragment) := by
  have notFragment : header.kind ≠ ipv6Fragment := by
    intro isFragment
    have := header.supported
    rw [isFragment] at this
    exact absurd this (by decide)
  rw [chainStep, if_neg notFragment, h, header.sized]
  rcases header.supported with ah | tlv
  · rw [if_pos ah, if_pos ah]
    rfl
  · by_cases ah : header.kind = ipv6Ah
    · rw [if_pos ah, if_pos ah]
      rfl
    · rw [if_neg ah, if_pos tlv, if_neg ah]
      rfl

/-- The walk skips an encoded chain and comes to the header behind it. -/
theorem headerAt_encodeChain (headers : List ExtHeader) (nonempty : rest ≠ [])
    (h : HeaderAt (front ++ encodeChain headers kind ++ rest) n prev front.length
      (firstKind headers kind) fragment) :
    ∃ prev', HeaderAt (front ++ encodeChain headers kind ++ rest) (n + headers.length) prev'
      (front.length + (encodeChain headers kind).length) kind fragment := by
  induction headers generalizing front n prev with
  | nil => exact ⟨prev, h⟩
  | cons header tail ih =>
    let block : Bytes := firstKind tail kind :: header.lenByte :: header.body
    have split : front ++ encodeChain (header :: tail) kind ++ rest =
        front ++ block ++ encodeChain tail kind ++ rest := by
      simp only [encodeChain, block, List.append_assoc]
    rw [split] at h ⊢
    have named : (front ++ block ++ encodeChain tail kind ++ rest)[front.length]? =
        some (firstKind tail kind) := by
      simp [block]
    have sized : (front ++ block ++ encodeChain tail kind ++ rest)[front.length + 1]? =
        some header.lenByte := by
      simp [block]
    have step : chainStep (front ++ block ++ encodeChain tail kind ++ rest) header.kind
        front.length fragment = some (.skip block.length fragment) :=
      chainStep_extHeader header sized
    have fits : front.length + block.length <
        (front ++ block ++ encodeChain tail kind ++ rest).length := by
      have := List.length_pos_of_ne_nil nonempty
      simp only [List.length_append]
      omega
    have skipped := HeaderAt.skip h step named fits
    rw [← List.length_append] at skipped
    obtain ⟨prev', found⟩ := ih skipped
    refine ⟨prev', ?_⟩
    have count : n + (header :: tail).length = n + 1 + tail.length := by
      rw [List.length_cons]
      omega
    have place : front.length + (encodeChain (header :: tail) kind).length =
        (front ++ block).length + (encodeChain tail kind).length := by
      simp only [encodeChain, List.length_append, block]
      omega
    rw [count, place]
    exact found

/-- Both parsers on a packet whose chain ends `d` bytes further on. -/
theorem parse_shift (long : 40 ≤ p.length) (v6 : ipVersion p = 6)
    (length : q.length = p.length + d) (version : ipVersion q = ipVersion p)
    (src : ipv6At q 8 = ipv6At p 8) (dst : ipv6At q 24 = ipv6At p 24)
    (chained : ipv6Chain p = some chain)
    (chained' : ipv6Chain q = some { chain with offset := chain.offset + d })
    (bytes : ∀ i, chain.offset ≤ i → q[i + d]? = p[i]?) :
    parsePacketInfo q = (parsePacketInfo p).map (PacketInfo.shift · d) ∧
      parseIpv6Fragment q = (parseIpv6Fragment p).map (Ipv6Fragment.shift · d) := by
  obtain ⟨protocol, offset, fragment⟩ := chain
  have info := packetInfo_shift bytes length protocol (.v6 (ipv6At p 8)) (.v6 (ipv6At p 24))
  have carries := carriesUpperHeader_shift bytes length protocol
  have ports : q.length < offset + d + 4 ↔ p.length < offset + 4 := by omega
  constructor
  · rw [parsePacketInfo_v6 v6, parsePacketInfo_v6 (version.trans v6), parseIpv6, parseIpv6,
      if_neg (by omega), if_neg (by omega), ipv6UpperLayer, ipv6UpperLayer, chained, chained']
    cases fragment with
    | some header => rfl
    | none =>
      simp only [Option.bind_some, Option.isNone_none, if_true, src, dst, info, ports]
      split
      · rfl
      · rfl
  · have shape : ¬(p.length < 40 ∨ ipVersion p ≠ 6) := not_or.mpr ⟨by omega, not_not.mpr v6⟩
    have shape' : ¬(q.length < 40 ∨ ipVersion p ≠ 6) := not_or.mpr ⟨by omega, not_not.mpr v6⟩
    rw [parseIpv6Fragment, parseIpv6Fragment, version, if_neg shape, if_neg shape', chained,
      chained']
    cases fragment with
    | none => rfl
    | some header =>
      simp only [Option.bind_some, src, dst, info, carries]
      split
      · rfl
      · rfl

theorem upper_stop (upper : protocol = 6 ∨ protocol = 17 ∨ protocol = 58) :
    chainStep p protocol off fragment = some (.stop ⟨protocol, off, fragment⟩) := by
  rcases upper with rfl | rfl | rfl <;> rfl

/-- Positions lie before the upper-layer header, and inside the packet with it. -/
theorem HeaderAt.before_upper (upperAt : HeaderAt p N prevU offU protocol fragmentU)
    (upper : protocol = 6 ∨ protocol = 17 ∨ protocol = 58) (inside : offU < p.length)
    (h : HeaderAt p n prev off kind fragment) : n ≤ N ∧ off < p.length := by
  constructor
  · by_contra beyond
    have short := walk_short_of_headerAt h (N + 1) (by omega)
    rw [walk_of_headerAt upperAt 1, walk_succ_stop (upper_stop upper)] at short
    cases short
  · cases h with
    | fixed _ =>
      have := upperAt.bounds
      omega
    | skip _ _ _ fits => exact fits

/-- Headers inserted anywhere in the chain only move the transport header. -/
theorem insertHeaders_transparent (headers : List ExtHeader) (hi lo : UInt8)
    (v6 : ipVersion p = 6) (upperAt : HeaderAt p N prevU offU protocol fragmentU)
    (upper : protocol = 6 ∨ protocol = 17 ∨ protocol = 58) (inside : offU < p.length)
    (h : HeaderAt p n prev off kind fragment) (limit : N + headers.length < maxHeaders) :
    let q := insertHeaders p prev off kind headers hi lo
    let d := (encodeChain headers kind).length
    parsePacketInfo q = (parsePacketInfo p).map (PacketInfo.shift · d) ∧
      parseIpv6Fragment q = (parseIpv6Fragment p).map (Ipv6Fragment.shift · d) ∧
      q.drop (offU + d) = p.drop offU := by
  intro q d
  obtain ⟨hn, hoff⟩ := upperAt.before_upper upper inside h
  have hoffU : 40 ≤ offU := upperAt.bounds.2.1
  have rest : p.drop off ≠ [] := by simpa using hoff
  let front : Bytes := rename p prev off (firstKind headers kind) hi lo
  have frontLength : front.length = off := rename_length (Nat.le_of_lt hoff)
  have hq : q = front ++ encodeChain headers kind ++ p.drop off := rfl
  have length : q.length = p.length + d := by
    rw [hq, List.length_append, List.length_append, List.length_drop]
    omega
  have bytes : ∀ i, off ≤ i → q[i + d]? = p[i]? := by
    intro i hi'
    have place : (front ++ encodeChain headers kind).length = off + d := by
      rw [List.length_append, frontLength]
    rw [hq, List.getElem?_append_right (by omega), List.getElem?_drop]
    congr 1
    omega
  -- the walk over `q` comes to the old header behind the inserted ones, and goes on as over `p`
  have start : HeaderAt q n prev off (firstKind headers kind) fragment := by
    rw [hq, List.append_assoc]
    exact h.renamed (Nat.le_of_lt hoff) (by simp [rest])
  obtain ⟨prev', moved⟩ :
      ∃ prev', HeaderAt q (n + headers.length) prev' (off + d) kind fragment := by
    rw [← frontLength] at start ⊢
    exact headerAt_encodeChain headers rest start
  have chained : ipv6Chain p = some ⟨protocol, offU, fragmentU⟩ :=
    chain_of_headerAt upperAt (upper_stop upper) (by omega)
  have walk : ipv6Walk p (N + 1 - n) kind off fragment = some ⟨protocol, offU, fragmentU⟩ := by
    rw [← walk_of_headerAt h, show n + (N + 1 - n) = N + 1 by omega, walk_of_headerAt upperAt 1,
      walk_succ_stop (upper_stop upper)]
  have walk' : ipv6Walk q (N + 1 - n) kind (off + d) fragment =
      some ⟨protocol, offU + d, fragmentU⟩ := by
    rw [walk_shift bytes length, walk]
    rfl
  have chained' : ipv6Chain q = some ⟨protocol, offU + d, fragmentU⟩ := by
    obtain ⟨n', prev'', off', kind', fragment', _, hlt, at', stop⟩ := headerAt_of_walk moved walk'
    exact chain_of_headerAt at' stop (by omega)
  have upperAfter : off ≤ offU := walk_forward walk
  obtain ⟨version, src, dst⟩ : ipVersion q = ipVersion p ∧ ipv6At q 8 = ipv6At p 8 ∧
      ipv6At q 24 = ipv6At p 24 := by
    rw [hq, List.append_assoc]
    exact renamed_fixed h (Nat.le_of_lt hoff) _
  obtain ⟨whole, fragmented⟩ := parse_shift (by omega) v6 length version src dst chained chained'
    (fun i hi' => bytes i (Nat.le_trans upperAfter hi'))
  refine ⟨whole, fragmented, List.ext_getElem? fun i => ?_⟩
  rw [List.getElem?_drop, List.getElem?_drop, show offU + d + i = offU + i + d by omega]
  exact bytes _ (by omega)

/-- A whole IPv6 packet's transport header is a position of its chain. -/
theorem headerAt_of_parsePacketInfo (v6 : ipVersion p = 6)
    (parsed : parsePacketInfo p = some info) :
    ∃ n prev, n < maxHeaders ∧ HeaderAt p n prev info.transportOffset info.protocol none := by
  rw [parsePacketInfo_v6 v6] at parsed
  obtain ⟨long, chain, chained, unfragmented, _, rfl⟩ := parseIpv6_some parsed
  obtain ⟨n, prev, off, kind, fragment, limit, at', stop⟩ := headerAt_of_chain chained long
  rcases chainStep_cases stop with
    ⟨_, _, header, _, ⟨_, stop⟩ | ⟨_, skip⟩⟩ | ⟨_, _, skip, _⟩ | ⟨stop, _⟩
  · cases stop
    cases unfragmented
  · cases skip
  · cases skip
  · cases stop
    cases unfragmented
    exact ⟨n, prev, limit, at'⟩

/-! ## Fragments -/

theorem whole_or_fragment (p : Bytes) : parsePacketInfo p = none ∨ parseIpv6Fragment p = none := by
  by_contra both
  rw [not_or] at both
  obtain ⟨info, parsed⟩ := Option.ne_none_iff_exists'.mp both.1
  obtain ⟨f, parsed'⟩ := Option.ne_none_iff_exists'.mp both.2
  obtain ⟨_, v6, chain, header, chained, fragmented, _⟩ := parseIpv6Fragment_some parsed'
  rw [parsePacketInfo_v6 v6] at parsed
  obtain ⟨_, chain', chained', unfragmented, _⟩ := parseIpv6_some parsed
  rw [chained] at chained'
  cases chained'
  rw [unfragmented] at fragmented
  cases fragmented

/-- A first fragment reads like the packet without its Fragment header. -/
theorem spliceFragment_transparent (hi lo : UInt8) (parsed : parseIpv6Fragment p = some f)
    (first : f.first = true) (h : HeaderAt p n prev off ipv6Fragment none) :
    ∃ info, parsePacketInfo (spliceFragment p prev off hi lo) = some info ∧
      f.info = info.shift 8 := by
  obtain ⟨long, v6, chain, header, chained, fragmented, carries, rfl⟩ :=
    parseIpv6Fragment_some parsed
  have offsetZero : header.offset = 0 := beq_iff_eq.mp first
  obtain ⟨_, header', _, fragmented', ⟨later, rfl⟩ | ⟨_, left, next, hleft, hnext, hlen, walk⟩⟩ :=
    chain_through_fragment h chained
  · cases fragmented
    exact absurd offsetZero later
  · let q := spliceFragment p prev off hi lo
    have frontLength : (rename p prev off (byte p off) hi lo).length = off :=
      rename_length (by omega)
    have length : p.length = q.length + 8 := by
      show p.length = (rename p prev off (byte p off) hi lo ++ p.drop (off + 8)).length + 8
      rw [List.length_append, List.length_drop]
      omega
    have bytes : ∀ i, off ≤ i → p[i + 8]? = q[i]? := by
      intro i hi'
      show p[i + 8]? = (rename p prev off (byte p off) hi lo ++ p.drop (off + 8))[i]?
      rw [List.getElem?_append_right (by omega), List.getElem?_drop]
      congr 1
      omega
    have rest : p.drop (off + 8) ≠ [] := by simpa using hlen
    have named : HeaderAt q n prev off next none := by
      rw [← byte_of_getElem? hnext]
      exact h.renamed (by omega) rest
    -- behind the Fragment header both walks read the same bytes
    obtain ⟨_, unseen⟩ := walk_seen walk
    rw [walk_shift bytes length] at unseen
    obtain ⟨chain', walk', moved⟩ := Option.map_eq_some_iff.mp unseen
    obtain ⟨sameProtocol, sameOffset, unfragmented⟩ := Ipv6Chain.mk.inj moved
    have upperAfter : off ≤ chain'.offset := walk_forward walk'
    have chained' : ipv6Chain q = some chain' := by
      obtain ⟨n', _, _, _, _, _, hlt, at', stop⟩ := headerAt_of_walk named walk'
      exact chain_of_headerAt at' stop (by omega)
    obtain ⟨version, src, dst⟩ : ipVersion q = ipVersion p ∧ ipv6At q 8 = ipv6At p 8 ∧
        ipv6At q 24 = ipv6At p 24 := renamed_fixed h (by omega) _
    have ports :
        ¬((chain'.protocol = 6 ∨ chain'.protocol = 17) ∧ q.length < chain'.offset + 4) := by
      rintro ⟨transport, cut⟩
      rw [sameProtocol] at transport
      have := ports_of_carriesUpperHeader (carries offsetZero) transport
      omega
    have hoff := h.bounds.2.1
    refine ⟨packetInfo q chain'.protocol chain'.offset (.v6 (ipv6At p 8)) (.v6 (ipv6At p 24)),
      ?_, ?_⟩
    · rw [parsePacketInfo_v6 (version.trans v6), parseIpv6, if_neg (by omega), ipv6UpperLayer,
        chained', Option.bind_some, if_pos (Option.isNone_iff_eq_none.mpr unfragmented), src, dst]
      exact if_neg ports
    · rw [← packetInfo_shift (fun i hi' => bytes i (by omega)) length, sameOffset, sameProtocol]

/-- What extension headers and fragmentation change of a parsed packet.

* The transport header of every whole IPv6 packet is a position of its chain, and
  headers inserted in front of any position of a chain that ends at a TCP, UDP or
  ICMPv6 header only move that header, as far as the walk's limit allows.
* No packet is both whole and a fragment.
* A first fragment reads like the packet with its Fragment header taken out. -/
theorem parser_transparent :
    (∀ p info, ipVersion p = 6 → parsePacketInfo p = some info →
      ∃ n prev, n < maxHeaders ∧ HeaderAt p n prev info.transportOffset info.protocol none) ∧
    (∀ p N prevU offU protocol fragmentU n prev off kind fragment headers hi lo,
      ipVersion p = 6 → HeaderAt p N prevU offU protocol fragmentU →
      protocol = 6 ∨ protocol = 17 ∨ protocol = 58 → offU < p.length →
      HeaderAt p n prev off kind fragment → N + headers.length < maxHeaders →
      let q := insertHeaders p prev off kind headers hi lo
      let d := (encodeChain headers kind).length
      parsePacketInfo q = (parsePacketInfo p).map (PacketInfo.shift · d) ∧
        parseIpv6Fragment q = (parseIpv6Fragment p).map (Ipv6Fragment.shift · d) ∧
        q.drop (offU + d) = p.drop offU) ∧
    (∀ p, parsePacketInfo p = none ∨ parseIpv6Fragment p = none) ∧
    (∀ p f hi lo, parseIpv6Fragment p = some f → f.first = true →
      (∃ n prev off, HeaderAt p n prev off ipv6Fragment none) ∧
      ∀ n prev off, HeaderAt p n prev off ipv6Fragment none →
        ∃ info, parsePacketInfo (spliceFragment p prev off hi lo) = some info ∧
          f.info = info.shift 8) := by
  refine ⟨fun p info => headerAt_of_parsePacketInfo, ?_, whole_or_fragment, ?_⟩
  · intro p N prevU offU protocol fragmentU n prev off kind fragment headers hi lo v6 upperAt upper
      inside h limit
    exact insertHeaders_transparent headers hi lo v6 upperAt upper inside h limit
  · intro p f hi lo parsed first
    refine ⟨?_, fun n prev off h => spliceFragment_transparent hi lo parsed first h⟩
    obtain ⟨n, prev, off, _, h, _⟩ := ((fragment_ports parsed).2 first).1
    exact ⟨n, prev, off, h⟩

/-- An IPv6 UDP packet from `200::1` port 1000 to `200::2` port 53. -/
def udpOverIpv6 : Bytes :=
  [0x60, 0, 0, 0, 0, 8, 17, 64] ++ [2, 0, 0, 0, 0, 0, 0, 0, 0, 0, 0, 0, 0, 0, 0, 1] ++
    [2, 0, 0, 0, 0, 0, 0, 0, 0, 0, 0, 0, 0, 0, 0, 2] ++ [3, 232, 0, 53, 0, 8, 0, 0]

def hopByHop : ExtHeader where
  kind := 0
  lenByte := 0
  body := [1, 4, 0, 0, 0, 0]
  supported := by decide
  sized := by decide

/-- A hop-by-hop header in front of the UDP header moves the ports by 8. -/
theorem parser_transparent_hopByHop :
    parsePacketInfo (insertHeaders udpOverIpv6 6 40 17 [hopByHop] 0 16) =
      some ⟨.v6 (ipv6At udpOverIpv6 8), .v6 (ipv6At udpOverIpv6 24), 17, 1000, 53, 0, 0, 0,
        48⟩ := by
  have udp : HeaderAt udpOverIpv6 0 6 40 17 none := .fixed rfl
  have moved := (parser_transparent.2.1 _ _ _ _ _ _ _ _ _ _ _ [hopByHop] 0 16 (by decide) udp
    (.inr (.inl rfl)) (by decide) udp (by decide)).1
  rw [moved]
  decide

end Rayfish
