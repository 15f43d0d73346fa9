import Rayfish.Firewall.Packet
import Mathlib.Tactic.Common

/-!
# Positions of an extension-header chain

`HeaderAt p n prev off kind fragment` says that the walk over `p` reaches, after
`n` headers, a header of kind `kind` at offset `off`, named by the next-header
byte at offset `prev`. Three facts carry every statement about the walk:

* `walk_of_headerAt`: a walk may be resumed at any position it reaches;
* `HeaderAt.transfer`: a packet with the same bytes before `off` has the same
  positions up to `off`, whatever it names there;
* `walk_shift`: bytes moved as a block are walked as before, at moved offsets.
-/

namespace Rayfish

open Lib

/-- The positions the extension-header walk over `p` reaches. -/
inductive HeaderAt (p : Bytes) : Nat → Nat → Nat → UInt8 → Option FragmentHeader → Prop where
  | fixed : p[6]? = some kind → HeaderAt p 0 6 40 kind none
  | skip : HeaderAt p n prev off kind fragment →
      chainStep p kind off fragment = some (.skip len fragment') →
      p[off]? = some next → off + len < p.length →
      HeaderAt p (n + 1) off (off + len) next fragment'

variable {p q : Bytes} {n prev off len d left : Nat} {kind next : UInt8}
  {fragment fragment' : Option FragmentHeader} {chain : Ipv6Chain}

/-! ## One header -/

theorem walk_succ_stop (h : chainStep p kind off fragment = some (.stop chain)) :
    ipv6Walk p (left + 1) kind off fragment = some chain := by
  simp only [ipv6Walk, h]

theorem walk_succ_skip (h : chainStep p kind off fragment = some (.skip len fragment'))
    (hn : p[off]? = some next) (hl : off + len < p.length) :
    ipv6Walk p (left + 1) kind off fragment = ipv6Walk p left next (off + len) fragment' := by
  simp only [ipv6Walk, h, hn]
  rw [if_neg (by omega)]

/-- What a walk that ends did at its first header. -/
theorem walk_succ_cases (h : ipv6Walk p (left + 1) kind off fragment = some chain) :
    chainStep p kind off fragment = some (.stop chain) ∨
      ∃ len fragment' next, chainStep p kind off fragment = some (.skip len fragment') ∧
        p[off]? = some next ∧ off + len < p.length ∧
        ipv6Walk p left next (off + len) fragment' = some chain := by
  simp only [ipv6Walk] at h
  split at h
  · cases h
  · next chain' hc =>
    cases h
    exact .inl hc
  · next len fragment' hc =>
    split at h
    · cases h
    · next next hn =>
      split at h
      · cases h
      · exact .inr ⟨len, fragment', next, hc, hn, by omega, h⟩

/-- Everything one header can do to the walk: a Fragment header not seen before
ends it or is skipped, any other extension header is skipped, and an upper-layer
header ends it. Only a Fragment header looks at the fragment seen so far. -/
theorem chainStep_cases (h : chainStep p kind off fragment = some step) :
    (kind = ipv6Fragment ∧ fragment = none ∧ ∃ header, fragmentHeader p off = some header ∧
        ((header.offset ≠ 0 ∧ step = .stop ⟨ipv6Fragment, off + 8, some header⟩) ∨
          (header.offset = 0 ∧ step = .skip 8 (some header)))) ∨
      (∃ len, 8 ≤ len ∧ step = .skip len fragment ∧
        ∀ other, chainStep p kind off other = some (.skip len other)) ∨
      (step = .stop ⟨kind, off, fragment⟩ ∧
        ∀ other, chainStep p kind off other = some (.stop ⟨kind, off, other⟩)) := by
  unfold chainStep at h ⊢
  split at h
  · next isFragment =>
    split at h
    · cases h
    · next unseen =>
      obtain ⟨header, hh, rfl⟩ := Option.map_eq_some_iff.mp h
      refine .inl ⟨isFragment, by simpa using unseen, header, hh, ?_⟩
      split
      · next later => exact .inl ⟨later, rfl⟩
      · next first => exact .inr ⟨not_not.mp first, rfl⟩
  · next notFragment =>
    simp only [if_neg notFragment]
    split at h
    · next ah =>
      obtain ⟨b, hb, rfl⟩ := Option.map_eq_some_iff.mp h
      exact .inr (.inl ⟨_, by omega, rfl, fun other => by rw [if_pos ah, hb]; rfl⟩)
    · next notAh =>
      simp only [if_neg notAh]
      split at h
      · next tlv =>
        obtain ⟨b, hb, rfl⟩ := Option.map_eq_some_iff.mp h
        exact .inr (.inl ⟨_, by omega, rfl, fun other => by rw [if_pos tlv, hb]; rfl⟩)
      · next upper =>
        cases h
        exact .inr (.inr ⟨rfl, fun other => if_neg upper⟩)

theorem chainStep_skip_len (h : chainStep p kind off fragment = some (.skip len fragment')) :
    8 ≤ len := by
  rcases chainStep_cases h with ⟨_, _, header, _, ⟨_, stop⟩ | ⟨_, skip⟩⟩ | ⟨len', hl, skip, _⟩ |
    ⟨stop, _⟩
  · cases stop
  · cases skip
    exact le_refl 8
  · cases skip
    exact hl
  · cases stop

/-- One header read from two packets that hold it at offsets `d` apart. -/
theorem chainStep_shift (kind : UInt8) (fragment : Option FragmentHeader)
    (bytes : ∀ i, off < i → i < off + 8 → q[i + d]? = p[i]?)
    (fits : off + d + 8 ≤ q.length ↔ off + 8 ≤ p.length) :
    chainStep q kind (off + d) fragment =
      (chainStep p kind off fragment).map fun
        | .stop chain => .stop { chain with offset := chain.offset + d }
        | .skip len fragment => .skip len fragment := by
  have hlen : q[off + d + 1]? = p[off + 1]? := by
    rw [show off + d + 1 = off + 1 + d by omega]
    exact bytes _ (by omega) (by omega)
  have hbyte : ∀ i, 0 < i → i < 8 → byte q (off + d + i) = byte p (off + i) := by
    intro i hi hi'
    rw [show off + d + i = off + i + d by omega]
    exact byte_eq_of_getElem? (bytes _ (by omega) (by omega))
  have hfrag : fragmentHeader q (off + d) = fragmentHeader p off := by
    simp only [fragmentHeader, fits, hbyte 2 (by omega) (by omega), hbyte 3 (by omega) (by omega),
      hbyte 4 (by omega) (by omega), hbyte 5 (by omega) (by omega), hbyte 6 (by omega) (by omega),
      hbyte 7 (by omega) (by omega)]
  unfold chainStep
  rw [hlen]
  split
  · split
    · rfl
    · rw [Option.map_map]
      congr 1
      funext header
      simp only [Function.comp_apply]
      split
      · simp only [ChainStep.stop.injEq, Ipv6Chain.mk.injEq, true_and, and_true]
        omega
      · rfl
  · split
    · rw [Option.map_map]
      rfl
    · split
      · rw [Option.map_map]
        rfl
      · rfl

/-! ## Positions -/

section

variable (h : HeaderAt p n prev off kind fragment)

include h

theorem HeaderAt.bounds :
    prev < off ∧ 40 ≤ off ∧ (prev = 6 ∨ 40 ≤ prev) ∧ p[prev]? = some kind := by
  induction h with
  | fixed hk => exact ⟨by omega, by omega, .inl rfl, hk⟩
  | skip _ hs hn hl ih =>
    have := chainStep_skip_len hs
    exact ⟨by omega, by omega, .inr (by omega), hn⟩

/-- A walk may be resumed at any position it reaches. -/
theorem walk_of_headerAt (left : Nat) :
    ipv6Walk p (n + left) (byte p 6) 40 none = ipv6Walk p left kind off fragment := by
  induction h generalizing left with
  | fixed hk => rw [byte_of_getElem? hk, Nat.zero_add]
  | skip _ hs hn hl ih =>
    rw [Nat.add_right_comm, Nat.add_assoc, ih (left + 1), walk_succ_skip hs hn hl]

/-- A walk allowed only `n` headers does not get past position `n`. -/
theorem walk_short_of_headerAt : ∀ m, m ≤ n → ipv6Walk p m (byte p 6) 40 none = none := by
  induction h with
  | fixed _ =>
    intro m hm
    obtain rfl : m = 0 := by omega
    rfl
  | @skip n prev off kind fragment len fragment' next before hs hn hl ih =>
    intro m hm
    rcases Nat.lt_or_eq_of_le hm with hlt | rfl
    · exact ih m (by omega)
    · rw [walk_of_headerAt before 1, walk_succ_skip hs hn hl]
      rfl

omit h in
/-- A walk only moves forward. -/
theorem walk_forward (walk : ipv6Walk p left kind off fragment = some chain) :
    off ≤ chain.offset := by
  induction left generalizing kind off fragment with
  | zero => cases walk
  | succ left ih =>
    rcases walk_succ_cases walk with hs | ⟨len, fragment', next, hs, hn, hl, rest⟩
    · rcases chainStep_cases hs with
        ⟨_, _, header, _, ⟨_, stop⟩ | ⟨_, skip⟩⟩ | ⟨_, _, skip, _⟩ | ⟨stop, _⟩
      · cases stop
        exact Nat.le_add_right off 8
      · cases skip
      · cases skip
      · cases stop
        exact le_refl off
    · have := ih rest
      omega

/-- A walk that ends does so at one of its positions. -/
theorem headerAt_of_walk (walk : ipv6Walk p left kind off fragment = some chain) :
    ∃ n' prev' off' kind' fragment', n ≤ n' ∧ n' < n + left ∧
      HeaderAt p n' prev' off' kind' fragment' ∧
      chainStep p kind' off' fragment' = some (.stop chain) := by
  induction left generalizing n prev off kind fragment with
  | zero => cases walk
  | succ left ih =>
    rcases walk_succ_cases walk with hs | ⟨len, fragment', next, hs, hn, hl, rest⟩
    · exact ⟨n, prev, off, kind, fragment, le_refl n, by omega, h, hs⟩
    · obtain ⟨n', prev', off', kind', f', hge, hlt, at', stop⟩ := ih (.skip h hs hn hl) rest
      exact ⟨n', prev', off', kind', f', by omega, by omega, at', stop⟩

omit h in
theorem headerAt_of_chain (h : ipv6Chain p = some chain) (long : 40 ≤ p.length) :
    ∃ n prev off kind fragment, n < maxHeaders ∧ HeaderAt p n prev off kind fragment ∧
      chainStep p kind off fragment = some (.stop chain) := by
  have start : HeaderAt p 0 6 40 (byte p 6) none := .fixed (getElem?_byte (by omega))
  obtain ⟨n, prev, off, kind, fragment, _, hlt, at', stop⟩ := headerAt_of_walk start h
  exact ⟨n, prev, off, kind, fragment, by omega, at', stop⟩

theorem chain_of_headerAt (stop : chainStep p kind off fragment = some (.stop chain))
    (limit : n < maxHeaders) : ipv6Chain p = some chain := by
  obtain ⟨left, hleft⟩ : ∃ left, maxHeaders = n + (left + 1) := ⟨maxHeaders - n - 1, by omega⟩
  rw [ipv6Chain, hleft, walk_of_headerAt h, walk_succ_stop stop]

/-- Positions depend only on the bytes before them; the byte that names the
last one may be rewritten, and bytes 4 and 5, the payload length, are not read. -/
theorem HeaderAt.transfer (bytes : ∀ i, i < off → i ≠ prev → i ≠ 4 → i ≠ 5 → q[i]? = p[i]?)
    (named : q[prev]? = some next) (fits : off < q.length) :
    HeaderAt q n prev off next fragment := by
  induction h generalizing next with
  | fixed _ => exact .fixed named
  | @skip n prev off kind fragment len fragment' k before hs hn hl ih =>
    have hlen := chainStep_skip_len hs
    obtain ⟨hprev, hoff, hprev', hkind⟩ := before.bounds
    have same : chainStep q kind off fragment = some (.skip len fragment') := by
      have := chainStep_shift (q := q) (p := p) (d := 0) kind fragment
        (fun i hi hi' => bytes i (by omega) (by omega) (by omega) (by omega))
        (show off + 0 + 8 ≤ q.length ↔ off + 8 ≤ p.length by omega)
      rw [hs] at this
      exact this
    have kept : HeaderAt q n prev off kind fragment := by
      refine ih (fun i hi hne h4 h5 => bytes i (by omega) (by omega) h4 h5) ?_ (by omega)
      rw [bytes prev (by omega) (by omega) (by omega) (by omega), hkind]
    exact .skip kept same named fits

end

/-- Bytes moved as a block by `d` are walked as before. -/
theorem walk_shift (bytes : ∀ i, off ≤ i → q[i + d]? = p[i]?) (length : q.length = p.length + d) :
    ipv6Walk q left kind (off + d) fragment =
      (ipv6Walk p left kind off fragment).map
        fun chain => { chain with offset := chain.offset + d } := by
  induction left generalizing kind off fragment with
  | zero => rfl
  | succ left ih =>
    have hstep := chainStep_shift kind fragment (fun i hi _ => bytes i (Nat.le_of_lt hi))
      (show off + d + 8 ≤ q.length ↔ off + 8 ≤ p.length by omega)
    simp only [ipv6Walk, hstep, bytes off (le_refl off), length]
    rcases hs : chainStep p kind off fragment with _ | chain | ⟨len, fragment'⟩
    · rfl
    · rfl
    · simp only [Option.map_some]
      rcases hn : p[off]? with _ | next
      · rfl
      · by_cases hl : off + len ≥ p.length
        · simp only [if_pos hl, if_pos (show off + d + len ≥ p.length + d by omega),
            Option.map_none]
        · simp only [if_neg hl, if_neg (show ¬off + d + len ≥ p.length + d by omega)]
          rw [show off + d + len = off + len + d by omega]
          exact ih (fun i hi => bytes i (by omega))

/-! ## A Fragment header seen earlier -/

/-- Once a Fragment header was seen, the rest is walked as it would be without
one, and the fragment is carried along. -/
theorem walk_seen (h : ipv6Walk p left kind off (some seen) = some chain) :
    chain.fragment = some seen ∧
      ipv6Walk p left kind off none = some { chain with fragment := none } := by
  induction left generalizing kind off with
  | zero => cases h
  | succ left ih =>
    rcases walk_succ_cases h with hs | ⟨len, fragment', next, hs, hn, hl, rest⟩
    · rcases chainStep_cases hs with ⟨_, unseen, _⟩ | ⟨len, _, skip, _⟩ | ⟨stop, without⟩
      · cases unseen
      · cases skip
      · cases stop
        exact ⟨rfl, walk_succ_stop (without none)⟩
    · rcases chainStep_cases hs with ⟨_, unseen, _⟩ | ⟨len, _, skip, without⟩ | ⟨stop, _⟩
      · cases unseen
      · cases skip
        rw [walk_succ_skip (without none) hn hl]
        exact ih rest
      · cases stop

/-- A chain that carries a fragment passed its Fragment header. -/
theorem headerAt_fragment (h : HeaderAt p n prev off kind none)
    (walk : ipv6Walk p left kind off none = some chain) (carried : chain.fragment = some header) :
    ∃ n' prev' off', HeaderAt p n' prev' off' ipv6Fragment none ∧
      fragmentHeader p off' = some header := by
  induction left generalizing n prev off kind with
  | zero => cases walk
  | succ left ih =>
    rcases walk_succ_cases walk with hs | ⟨len, fragment', next, hs, hn, hl, rest⟩
    · rcases chainStep_cases hs with
        ⟨rfl, _, header', hh, ⟨_, stop⟩ | ⟨_, skip⟩⟩ | ⟨len, _, skip, _⟩ | ⟨stop, _⟩
      · cases stop
        cases carried
        exact ⟨n, prev, off, h, hh⟩
      · cases skip
      · cases skip
      · cases stop
        cases carried
    · rcases chainStep_cases hs with
        ⟨rfl, _, header', hh, ⟨_, stop⟩ | ⟨_, skip⟩⟩ | ⟨len, _, skip, _⟩ | ⟨stop, _⟩
      · cases stop
      · cases skip
        rw [(walk_seen rest).1] at carried
        cases carried
        exact ⟨n, prev, off, h, hh⟩
      · cases skip
        exact ih (.skip h hs hn hl) rest
      · cases stop

/-- What the walk does when it comes to a Fragment header. -/
theorem chain_through_fragment (h : HeaderAt p n prev off ipv6Fragment fragment)
    (chained : ipv6Chain p = some chain) :
    fragment = none ∧ ∃ header, fragmentHeader p off = some header ∧
      chain.fragment = some header ∧
      ((header.offset ≠ 0 ∧ chain = ⟨ipv6Fragment, off + 8, some header⟩) ∨
        header.offset = 0 ∧ ∃ left next, n + left + 1 = maxHeaders ∧ p[off]? = some next ∧
          off + 8 < p.length ∧ ipv6Walk p left next (off + 8) (some header) = some chain) := by
  have limit : n < maxHeaders := by
    by_contra hge
    rw [ipv6Chain, walk_short_of_headerAt h maxHeaders (by omega)] at chained
    cases chained
  obtain ⟨left, hleft⟩ : ∃ left, n + left + 1 = maxHeaders := ⟨maxHeaders - n - 1, by omega⟩
  rw [ipv6Chain, ← hleft, Nat.add_assoc, walk_of_headerAt h] at chained
  rcases walk_succ_cases chained with hs | ⟨len, fragment', next, hs, hn, hl, rest⟩
  · rcases chainStep_cases hs with
      ⟨_, unseen, header, hh, ⟨later, stop⟩ | ⟨_, skip⟩⟩ | ⟨_, _, skip, _⟩ | ⟨_, other⟩
    · cases stop
      exact ⟨unseen, header, hh, rfl, .inl ⟨later, rfl⟩⟩
    · cases skip
    · cases skip
    · cases other (some ⟨0, 0⟩)
  · rcases chainStep_cases hs with
      ⟨_, unseen, header, hh, ⟨_, stop⟩ | ⟨first, skip⟩⟩ | ⟨_, _, _, other⟩ | ⟨stop, _⟩
    · cases stop
    · cases skip
      exact ⟨unseen, header, hh, (walk_seen rest).1, .inr ⟨first, left, next, hleft, hn, hl, rest⟩⟩
    · cases other (some ⟨0, 0⟩)
    · cases stop

/-! ## Transport fields -/

/-- The same fields, read `d` bytes further on. -/
def PacketInfo.shift (info : PacketInfo) (d : Nat) : PacketInfo :=
  { info with transportOffset := info.transportOffset + d }

variable (bytes : ∀ i, off ≤ i → q[i + d]? = p[i]?) (length : q.length = p.length + d)
  (protocol : UInt8)

include bytes length

theorem u16OrZero_shift (hi : off ≤ i) : u16OrZero q (i + d) = u16OrZero p i := by
  have h0 : byte q (i + d) = byte p i := byte_eq_of_getElem? (bytes i hi)
  have h1 : byte q (i + d + 1) = byte p (i + 1) := by
    rw [Nat.add_right_comm]
    exact byte_eq_of_getElem? (bytes (i + 1) (by omega))
  have fits : i + d + 2 ≤ q.length ↔ i + 2 ≤ p.length := by omega
  simp only [u16OrZero, h0, h1, fits]

/-- The transport fields read from bytes moved as a block. -/
theorem packetInfo_shift (src dst : IpAddr) :
    packetInfo q protocol (off + d) src dst = (packetInfo p protocol off src dst).shift d := by
  have word : ∀ k, u16OrZero q (off + d + k) = u16OrZero p (off + k) := by
    intro k
    rw [Nat.add_right_comm]
    exact u16OrZero_shift bytes length (by omega)
  have h0 : q[off + d]? = p[off]? := bytes off (le_refl off)
  have h13 : q[off + d + 13]? = p[off + 13]? := by
    rw [Nat.add_right_comm]
    exact bytes _ (by omega)
  simp only [packetInfo, port, tcpFlags, icmpId, icmpType, word, h0, h13]
  rfl

theorem carriesUpperHeader_shift :
    carriesUpperHeader q protocol (off + d) = carriesUpperHeader p protocol off := by
  have h12 : q[off + d + 12]? = p[off + 12]? := by
    rw [Nat.add_right_comm]
    exact bytes _ (by omega)
  have fits : ∀ needed, off + d + needed ≤ q.length ↔ off + needed ≤ p.length := by
    omega
  simp only [carriesUpperHeader, upperHeaderLen, h12, fits]

end Rayfish
