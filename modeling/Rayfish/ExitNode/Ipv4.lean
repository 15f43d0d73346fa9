import Rayfish.Forward.SshNat
import Rayfish.Reject

/-!
# Address translation of IPv4 exit traffic

`rewrite` (`exit_node/ipv4.rs`) replaces an address in a packet's header and in the packet an
ICMP error quotes, and updates the checksums that cover it. `exit_rewrite_exact` says that
nothing else changes, that what checked out before still does, and when translating back
gives the packet one started from.
-/

namespace Rayfish

open Lib

/-! ## The translation -/

section

variable (p : Bytes)

def replaceChecksum (off : Nat) (old new : UInt16) (udp : Bool) : Bytes :=
  let check := word p off
  -- a UDP checksum of zero means that there is none
  if udp && check == 0 then p
  else
    let updated := csumReplace2 check old new
    setWord p off (if udp && updated == 0 then 0xffff else updated)

/-- Where the transport checksum of a packet without IPv4 options is. -/
def checksumOffset : Option Nat :=
  if byte p 9 = 6 then some (20 + 16) else if byte p 9 = 17 then some (20 + 6) else none

/-- One word of an address: the checksums are updated for it. -/
def replaceAddressWord (offset : Option Nat) (old new : Bytes) (p : Bytes) (at' : Nat) : Bytes :=
  let before := word old at'
  let after := word new at'
  let p := replaceChecksum p 10 before after false
  match offset.filter (· + 2 ≤ p.length) with
  | some off => replaceChecksum p off before after (byte p 9 == 17)
  | none => p

/-- One address field: replaced if it holds the old address. -/
def rewriteField (offset : Option Nat) (old new : Bytes) (p : Bytes) (field : Nat) : Bytes :=
  if (p.drop field).take 4 ≠ old then p
  else splice ([0, 2].foldl (replaceAddressWord offset old new) p) field new

/-- Packets the translation does not take: not IPv4 without options, cut off, or fragments. -/
def refusesPacket (quoted : Bool) : Bool :=
  p.length < 20 || byte p 0 >>> 4 != 4 || (byte p 0 &&& 15).toNat * 4 != 20 ||
    (word p 2).toNat < 20 || (!quoted && (word p 2).toNat != p.length) ||
    word p 6 &&& 0x3fff != 0 ||
    (!quoted && ((byte p 9 == 6 && p.length < 20 + 20) || (byte p 9 == 17 && p.length < 20 + 8)))

/-- `rewrite_inner` up to the ICMP branch. -/
def rewriteAddresses (p old new : Bytes) (quoted : Bool) : Option Bytes :=
  if refusesPacket p quoted then none
  else some ([12, 16].foldl (rewriteField (checksumOffset p) old new) p)

/-- The quote written back, and the checksum of the ICMP message computed anew. -/
def replaceQuote (p inner : Bytes) : Bytes :=
  let p := setWord (splice p 28 inner) 22 0
  setWord p 22 (icmpv4Checksum (p.drop 20))

def rewriteInner (p old new : Bytes) : Bool → Option Bytes
  | true => rewriteAddresses p old new true
  | false =>
    (rewriteAddresses p old new false).bind fun p =>
      if byte p 9 = 1 then
        if p.length < 20 + 8 then none
        else if byte p 20 ∈ [3, 11, 12] then
          (rewriteAddresses (p.drop 28) old new true).map (replaceQuote p)
        else some p
      else some p

def rewrite (packet : Bytes) (old new : Ipv4Addr) : Option Bytes :=
  rewriteInner packet (ipv4Octets old) (ipv4Octets new) false

def clientToWire (packet : Bytes) : Option Bytes := rewrite packet localClientAddr wireClientAddr

def clientFromWire (packet : Bytes) : Option Bytes := rewrite packet wireClientAddr localClientAddr

/-! ## What is asked of it -/

/-- An address after `old` became `new`. -/
def swapAddress (old new address : Bytes) : Bytes := if address = old then new else address

/-- The transport checksum, where the packet reaches that far. -/
def transportChecksum : Option Nat := (checksumOffset p).filter (· + 2 ≤ p.length)

/-- What the two addresses weigh in a checksum. -/
def addressSum : Nat := wordSum ((p.drop 12).take 8)

/-- An IPv4 header and what follows it, translated. `extra` is what the pseudo-header counts
besides the addresses; `rest` is what a quote leaves off. -/
structure Translated (old new h h' : Bytes) : Prop where
  src : (h'.drop 12).take 4 = swapAddress old new ((h.drop 12).take 4)
  dst : (h'.drop 16).take 4 = swapAddress old new ((h.drop 16).take 4)
  header : fold (wordSum (h.take 20)) = 0 → fold (wordSum (h'.take 20)) = 0
  udpZero : ∀ off, transportChecksum h = some off → byte h 9 = 17 → word h off = 0 → word h' off = 0
  transport : ∀ off, transportChecksum h = some off → ¬(byte h 9 = 17 ∧ word h off = 0) →
    ∀ extra n rest, 0 < extra → off + 2 ≤ n → n ≤ h.length →
      fold (addressSum h + extra + wordSum ((h.take n).drop 20 ++ rest)) = 0 →
      fold (addressSum h' + extra + wordSum ((h'.take n).drop 20 ++ rest)) = 0 ∧
        ¬(byte h 9 = 17 ∧ word h' off = 0)

/-- An ICMP error, which quotes the packet it is about. -/
def quotes : Bool := byte p 9 == 1 && byte p 20 ∈ ([3, 11, 12] : List UInt8)

def addressFields : List Nat := [12, 16] ++ if quotes p then [28 + 12, 28 + 16] else []

def checksumFields : List Nat :=
  [10] ++ (transportChecksum p).toList ++
    if quotes p then [22, 28 + 10] ++ (transportChecksum (p.drop 28)).toList.map (28 + ·) else []

end

/-- An IPv4 header without options of a packet that is not a fragment. -/
structure PlainHeader (p : Bytes) : Prop where
  long : 20 ≤ p.length
  first : byte p 0 = 0x45
  total : 20 ≤ (word p 2).toNat
  unfragmented : (word p 6).toNat % 2 ^ 14 = 0

/-- A packet that is translated: whole, with the transport header it needs. What an ICMP error
quotes may be cut off behind its own header. -/
structure Translatable (p : Bytes) : Prop extends PlainHeader p where
  whole : (word p 2).toNat = p.length
  tcp : byte p 9 = 6 → 40 ≤ p.length
  udp : byte p 9 = 17 → 28 ≤ p.length
  icmp : byte p 9 = 1 → 28 ≤ p.length
  quote : quotes p = true → PlainHeader (p.drop 28)

/-- The places of the fields of `width` bytes that start at `starts`. -/
def InFields (starts : List Nat) (width i : Nat) : Prop := ∃ a ∈ starts, a ≤ i ∧ i < a + width

/-- The addresses are replaced, the checksums that were right still are, nothing else changed. -/
structure RewrittenExactly (old new p p' : Bytes) : Prop where
  patch : Patch (fun i => InFields (addressFields p) 4 i ∨ InFields (checksumFields p) 2 i) p p'
  outer : Translated old new p p'
  quoted : quotes p = true → Translated old new (p.drop 28) (p'.drop 28)
  icmp : byte p 9 = 1 → fold (wordSum (p.drop 20)) = 0 → fold (wordSum (p'.drop 20)) = 0

/-- The same packet up to the two ways to write a checksum of zero. -/
structure SamePacket (p q : Bytes) : Prop where
  patch : Patch (InFields (checksumFields p) 2) p q
  checksums : ∀ c ∈ checksumFields p, (word q c).toNat ≡ (word p c).toNat [MOD 65535]

/-! ## Checksums -/

/-- What an update makes of a checksum when what it covers weighs `before` and then `after`. -/
def Updated (udp : Bool) (before after : Nat) (check check' : UInt16) : Prop :=
  if udp && check == 0 then check' = 0
  else check'.toNat + after ≡ check.toNat + before [MOD 65535] ∧ (udp = true → check' ≠ 0)

section Updated

variable {udp : Bool} {before after before' after' : Nat} {check check' check'' : UInt16}

theorem Updated.refl (udp : Bool) (n : Nat) (check : UInt16) : Updated udp n n check check := by
  unfold Updated
  split
  · next zero => exact (by simpa using zero : udp = true ∧ check = 0).2
  · next some => exact ⟨rfl, fun isUdp zero => some (by simp [isUdp, zero])⟩

theorem Updated.trans (first : Updated udp before after check check')
    (second : Updated udp before' after' check' check'') :
    Updated udp (before + before') (after + after') check check'' := by
  unfold Updated at *
  by_cases zero : (udp && check == 0) = true
  · rw [if_pos zero] at first ⊢
    subst first
    have isUdp : udp = true := by
      simp only [Bool.and_eq_true] at zero
      exact zero.1
    rwa [if_pos (by simp [isUdp])] at second
  · rw [if_neg zero] at first ⊢
    rw [if_neg (by
      simp only [Bool.and_eq_true, beq_iff_eq, not_and]
      exact first.2)] at second
    refine ⟨?_, second.2⟩
    unfold Nat.ModEq at *
    omega

/-- What counts is the difference. -/
theorem Updated.shift (h : Updated udp before after check check')
    (moved : total' + before = total + after) : Updated udp total total' check check' := by
  unfold Updated at *
  split
  · next zero => rwa [if_pos zero] at h
  next some =>
  rw [if_neg some] at h
  refine ⟨?_, h.2⟩
  unfold Nat.ModEq at *
  omega

theorem Updated.modEq (h : Updated udp n n check check') :
    check'.toNat ≡ check.toNat [MOD 65535] := by
  unfold Updated at h
  split at h
  · next zero =>
    simp only [Bool.and_eq_true, beq_iff_eq] at zero
    rw [h, zero.2]
  · exact Nat.ModEq.add_right_cancel' n h.1

end Updated

variable {off : Nat}

theorem replaceChecksum_updated (old new : UInt16) (udp : Bool) (inside : off + 2 ≤ p.length) :
    Patch (fun i => off ≤ i ∧ i < off + 2) p (replaceChecksum p off old new udp) ∧
      Updated udp old.toNat new.toNat (word p off)
        (word (replaceChecksum p off old new udp) off) := by
  by_cases zero : (udp && word p off == 0) = true
  · have kept : replaceChecksum p off old new udp = p := if_pos zero
    rw [kept, Updated, if_pos zero]
    simp only [Bool.and_eq_true, beq_iff_eq] at zero
    exact ⟨.refl _ _, zero.2⟩
  · have written : replaceChecksum p off old new udp = setWord p off
        (if udp && csumReplace2 (word p off) old new == 0 then 0xffff
          else csumReplace2 (word p off) old new) := if_neg zero
    rw [written, word_setWord inside, Updated, if_neg zero]
    refine ⟨.of_setWord inside, ?_, ?_⟩
    · have updated := replaceWord_modEq (word p off) old new
      split
      · next cleared =>
        -- the two ways to write zero weigh the same
        simp only [Bool.and_eq_true, beq_iff_eq, csumReplace2] at cleared
        rw [cleared.2] at updated
        have full : (0xffff : UInt16).toNat ≡ (0 : UInt16).toNat [MOD 65535] := by decide
        exact (Nat.ModEq.add_right _ full).trans updated
      · exact updated
    · intro isUdp
      split
      · decide
      · next some => exact fun cleared => some (by simp [isUdp, cleared])

/-! ## One header -/

/-- The bytes of the header checksum and of the transport checksum. -/
def ChecksumBytes (check : Option Nat) (i : Nat) : Prop :=
  (10 ≤ i ∧ i < 12) ∨ ∃ off, check = some off ∧ off ≤ i ∧ i < off + 2

/-- The addresses and the checksums. -/
def HeaderBytes (check : Option Nat) (i : Nat) : Prop :=
  (10 ≤ i ∧ i < 20) ∨ ∃ off, check = some off ∧ off ≤ i ∧ i < off + 2

/-- Bytes in `F` changed, and the checksums were updated for data that weighed `before` and
weighs `after`. -/
structure HeaderPatch (F : Nat → Prop) (check : Option Nat) (udp : Bool) (before after : Nat)
    (p q : Bytes) : Prop where
  patch : Patch F p q
  header : Updated false before after (word p 10) (word q 10)
  transport : ∀ off, check = some off → Updated udp before after (word p off) (word q off)

section Header

variable {F G : Nat → Prop} {check offset : Option Nat} {udp : Bool}
  {before after before' after' : Nat} {p q r old new : Bytes}

theorem HeaderPatch.refl (F : Nat → Prop) (check : Option Nat) (udp : Bool) (n : Nat) (p : Bytes) :
    HeaderPatch F check udp n n p p :=
  ⟨.refl F p, .refl _ _ _, fun _ _ => .refl _ _ _⟩

theorem HeaderPatch.trans (first : HeaderPatch F check udp before after p q)
    (second : HeaderPatch F check udp before' after' q r) :
    HeaderPatch F check udp (before + before') (after + after') p r :=
  ⟨first.patch.trans second.patch, first.header.trans second.header,
    fun off at' => (first.transport off at').trans (second.transport off at')⟩

theorem replaceAddressWord_patch (old new : Bytes) (long : 20 ≤ p.length)
    (far : ∀ off, offset = some off → 20 ≤ off) (at' : Nat) :
    HeaderPatch (ChecksumBytes (offset.filter (· + 2 ≤ p.length)))
      (offset.filter (· + 2 ≤ p.length)) (byte p 9 == 17) (word old at').toNat
      (word new at').toNat p (replaceAddressWord offset old new p at') := by
  have inside : 10 + 2 ≤ p.length := by omega
  obtain ⟨patch, updated⟩ := replaceChecksum_updated (word old at') (word new at') false inside
  have protocol := patch.byte_eq 9 (by decide)
  simp only [replaceAddressWord, patch.length]
  generalize replaceChecksum p 10 (word old at') (word new at') false = q
    at patch updated protocol ⊢
  cases fits : offset.filter (· + 2 ≤ p.length) with
  | none => exact ⟨patch.mono fun _ within => .inl within, updated, nofun⟩
  | some off =>
    obtain ⟨here, inside⟩ := Option.filter_eq_some_iff.mp fits
    have inside : off + 2 ≤ p.length := by simpa using inside
    have behind := far off here
    have inside' : off + 2 ≤ q.length := by rwa [patch.length]
    obtain ⟨patch', updated'⟩ :=
      replaceChecksum_updated (word old at') (word new at') (byte q 9 == 17) inside'
    refine ⟨?_, ?_, ?_⟩
    · exact (patch.mono fun _ within => .inl within).trans
        (patch'.mono fun _ within => .inr ⟨off, rfl, within⟩)
    · rw [patch'.word_eq 10 (by omega) (by omega)]
      exact updated
    · rintro _ ⟨⟩
      rw [← patch.word_eq off (by omega) (by omega), ← protocol]
      exact updated'

theorem wordSum_four (four : l.length = 4) : wordSum l = (word l 0).toNat + (word l 2).toNat := by
  match l, four with
  | [a, b, c, d], _ =>
    rw [word, word, toNat_be16, toNat_be16, wordSum, wordSum, wordSum, Nat.add_zero]
    rfl

theorem addressSum_eq (long : 20 ≤ p.length) :
    addressSum p = wordSum ((p.drop 12).take 4) + wordSum ((p.drop 16).take 4) := by
  have front : ((p.drop 12).take 4).length = 4 := by
    rw [List.length_take, List.length_drop]
    omega
  rw [addressSum, show (8 : Nat) = 4 + 4 from rfl, List.take_add, List.drop_drop,
    wordSum_append _ (by rw [front]; decide)]

/-- The loop over the words of an address updates both checksums for it. -/
theorem replaceAddress_patch (long : 20 ≤ p.length) (far : ∀ off, offset = some off → 20 ≤ off)
    (four : old.length = 4) (four' : new.length = 4) :
    HeaderPatch (ChecksumBytes (offset.filter (· + 2 ≤ p.length)))
      (offset.filter (· + 2 ≤ p.length)) (byte p 9 == 17) (wordSum old) (wordSum new) p
      ([0, 2].foldl (replaceAddressWord offset old new) p) := by
  have first := replaceAddressWord_patch old new long far 0
  have second := replaceAddressWord_patch (p := replaceAddressWord offset old new p 0) old new
    (by rwa [first.patch.length]) far 2
  have protocol : byte (replaceAddressWord offset old new p 0) 9 = byte p 9 := by
    refine first.patch.byte_eq 9 ?_
    rintro (within | ⟨off, fits, within⟩)
    · omega
    · have := far off (Option.filter_eq_some_iff.mp fits).1
      omega
  rw [first.patch.length, protocol] at second
  rw [wordSum_four four, wordSum_four four']
  exact first.trans second

/-- One address field: the new address in place of the old one, and the checksums updated for
it. -/
theorem rewriteField_patch (long : 20 ≤ p.length) (far : ∀ off, offset = some off → 20 ≤ off)
    (four : old.length = 4) (four' : new.length = 4) (address : field = 12 ∨ field = 16) :
    HeaderPatch (HeaderBytes (offset.filter (· + 2 ≤ p.length)))
        (offset.filter (· + 2 ≤ p.length)) (byte p 9 == 17) (wordSum ((p.drop field).take 4))
        (wordSum (((rewriteField offset old new p field).drop field).take 4)) p
        (rewriteField offset old new p field) ∧
      ((rewriteField offset old new p field).drop field).take 4 =
        swapAddress old new ((p.drop field).take 4) ∧
      ∀ other, other = 12 ∨ other = 16 → other ≠ field →
        ((rewriteField offset old new p field).drop other).take 4 = (p.drop other).take 4 := by
  by_cases differs : (p.drop field).take 4 ≠ old
  · have kept : rewriteField offset old new p field = p := if_pos differs
    rw [kept]
    exact ⟨.refl .., (if_neg differs).symm, fun _ _ _ => rfl⟩
  · have written : rewriteField offset old new p field =
        splice ([0, 2].foldl (replaceAddressWord offset old new) p) field new := if_neg differs
    have here : (p.drop field).take 4 = old := not_not.mp differs
    have adjusted := replaceAddress_patch long far four four'
    rw [written, here]
    generalize [0, 2].foldl (replaceAddressWord offset old new) p = r at adjusted ⊢
    have inside : field + new.length ≤ r.length := by
      rw [adjusted.patch.length]
      omega
    have copied := Patch.of_splice inside
    have slice := slice_splice inside
    rw [four'] at slice
    have behind : ∀ off, offset.filter (· + 2 ≤ p.length) = some off → 20 ≤ off :=
      fun off fits => far off (Option.filter_eq_some_iff.mp fits).1
    rw [slice]
    refine ⟨⟨?_, ?_, ?_⟩, (if_pos rfl).symm, ?_⟩
    · refine (adjusted.patch.mono ?_).trans (copied.mono fun i within => .inl (by omega))
      rintro i (within | transport)
      · exact .inl (by omega)
      · exact .inr transport
    · rw [copied.word_eq 10 (by omega) (by omega)]
      exact adjusted.header
    · intro off fits
      have := behind off fits
      rw [copied.word_eq off (by omega) (by omega)]
      exact adjusted.transport off fits
    · intro other isAddress apart
      rw [copied.slice_eq other 4 (fun i _ _ => by omega), adjusted.patch.slice_eq other 4]
      rintro i from' before' (within | ⟨off, fits, within⟩)
      · omega
      · have := behind off fits
        omega

theorem checksumOffset_some (h : checksumOffset p = some off) :
    20 ≤ off ∧ Even off ∧ off ≠ 20 + 2 := by
  unfold checksumOffset at h
  split at h
  · cases h
    decide
  cases (Option.ite_none_right_eq_some.1 h).2
  decide

theorem transportChecksum_some (h : transportChecksum p = some off) :
    20 ≤ off ∧ Even off ∧ off + 2 ≤ p.length := by
  obtain ⟨at', fits⟩ := Option.filter_eq_some_iff.mp h
  obtain ⟨far, even, _⟩ := checksumOffset_some at'
  exact ⟨far, even, by simpa using fits⟩

variable {i : Nat} {quoted : Bool} {s : Bytes}

/-- Bytes of the fixed header before the checksum are not touched. -/
theorem not_headerBytes (early : i < 10) : ¬HeaderBytes (transportChecksum p) i := by
  rintro (within | ⟨off, fits, within⟩)
  · omega
  · have := (transportChecksum_some fits).1
    omega

/-- The addresses of a header replaced, and the checksums updated for it. -/
structure HeaderTranslated (old new p q : Bytes) : Prop where
  src : (q.drop 12).take 4 = swapAddress old new ((p.drop 12).take 4)
  dst : (q.drop 16).take 4 = swapAddress old new ((p.drop 16).take 4)
  header : Updated false (addressSum p) (addressSum q) (word p 10) (word q 10)
  transport : ∀ off, transportChecksum p = some off →
    Updated (byte p 9 == 17) (addressSum p) (addressSum q) (word p off) (word q off)

theorem rewriteFields_translated (long : 20 ≤ p.length) (four : old.length = 4)
    (four' : new.length = 4) :
    Patch (HeaderBytes (transportChecksum p)) p
        ([12, 16].foldl (rewriteField (checksumOffset p) old new) p) ∧
      HeaderTranslated old new p ([12, 16].foldl (rewriteField (checksumOffset p) old new) p) := by
  have far : ∀ off, checksumOffset p = some off → 20 ≤ off :=
    fun off at' => (checksumOffset_some at').1
  obtain ⟨first, src, kept⟩ := rewriteField_patch (p := p) long far four four' (.inl rfl)
  have length := first.patch.length
  have protocol := first.patch.byte_eq 9 (not_headerBytes (by decide))
  have dst := kept 16 (.inr rfl) (by decide)
  simp only [List.foldl_cons, List.foldl_nil]
  generalize rewriteField (checksumOffset p) old new p 12 = q at first src dst length protocol ⊢
  obtain ⟨second, dst', kept'⟩ :=
    rewriteField_patch (p := q) (by rwa [length]) far four four' (.inr rfl)
  have src' := kept' 12 (.inl rfl) (by decide)
  rw [length, protocol, dst] at second
  have both := first.trans second
  rw [← src', ← addressSum_eq long, ← addressSum_eq (by rwa [second.patch.length, length])] at both
  exact ⟨both.patch, by rw [src', src], by rw [dst', dst], both.header, both.transport⟩

/-! ## What checked out still does -/

theorem wordSum_pos (some : byte p 0 ≠ 0) : 0 < wordSum p := by
  rcases p with _ | ⟨a, rest⟩
  · exact absurd rfl some
  · have isSome : a.toNat ≠ 0 := fun zero => some (UInt8.toNat_inj.mp zero)
    rcases rest with _ | ⟨b, rest⟩ <;> rw [wordSum] <;> omega

theorem wordSum_header (long : 20 ≤ p.length) :
    wordSum (p.take 20) = wordSum (p.take 10) + (word p 10).toNat + addressSum p := by
  have length : (p.take 20).length = 20 := List.length_take_of_le long
  rw [wordSum_split (p.take 20) (show Even 10 by decide) even_two (by rw [length]; decide),
    wordSum_slice_two (by rw [length]; decide), word_take (by decide), List.take_take,
    List.drop_take]
  rfl

/-- The segment and what a quote leaves off, apart from the transport checksum. -/
theorem segment_patch (patch : Patch (HeaderBytes check) p q) (here : check = some off)
    (far : 20 ≤ off) (n : Nat) (rest : Bytes) :
    Patch (fun i => off - 20 ≤ i ∧ i < off - 20 + 2) ((p.take n).drop 20 ++ rest)
      ((q.take n).drop 20 ++ rest) := by
  refine (((patch.take n).drop 20).mono ?_).append rest
  rintro i (within | ⟨off', same, within⟩)
  · omega
  · cases here.symm.trans same
    omega

/-- Version 4 and a header of five words. -/
theorem firstByte_iff (first : UInt8) :
    first >>> 4 = 4 ∧ (first &&& 15).toNat * 4 = 20 ↔ first = 0x45 := by
  have low : (first &&& 15).toNat = first.toNat % 16 := by
    rw [UInt8.toNat_and]
    exact Nat.and_two_pow_sub_one_eq_mod first.toNat 4
  have high : (first >>> 4).toNat = first.toNat / 16 := by
    rw [UInt8.toNat_shiftRight, Nat.shiftRight_eq_div_pow]
    rfl
  rw [← UInt8.toNat_inj, ← UInt8.toNat_inj, low, high]
  change first.toNat / 16 = 4 ∧ _ ↔ first.toNat = 69
  omega

theorem refusesPacket_eq_false : refusesPacket p quoted = false ↔ PlainHeader p ∧
    (quoted = false → (word p 2).toNat = p.length ∧ (byte p 9 = 6 → 40 ≤ p.length) ∧
      (byte p 9 = 17 → 28 ≤ p.length)) := by
  have offset : word p 6 &&& 0x3fff = 0 ↔ (word p 6).toNat % 2 ^ 14 = 0 := by
    rw [← Nat.and_two_pow_sub_one_eq_mod, ← UInt16.toNat_inj, UInt16.toNat_and]
    rfl
  simp only [refusesPacket, Bool.or_eq_false_iff, Bool.and_eq_false_imp, decide_eq_false_iff_not,
    Nat.not_lt, bne_eq_false_iff_eq, beq_iff_eq, Bool.not_eq_true', offset]
  constructor
  · rintro ⟨⟨⟨⟨⟨⟨long, version⟩, words⟩, total⟩, whole⟩, unfragmented⟩, transport⟩
    exact ⟨⟨long, (firstByte_iff _).mp ⟨version, words⟩, total, unfragmented⟩,
      fun outer => ⟨whole outer, transport outer⟩⟩
  · rintro ⟨⟨long, first, total, unfragmented⟩, outer⟩
    obtain ⟨version, words⟩ := (firstByte_iff _).mpr first
    exact ⟨⟨⟨⟨⟨⟨long, version⟩, words⟩, total⟩, fun isOuter => (outer isOuter).1⟩, unfragmented⟩,
      fun isOuter => (outer isOuter).2⟩

theorem refusesPacket_false (h : refusesPacket p quoted = false) :
    20 ≤ p.length ∧ byte p 0 ≠ 0 := by
  obtain ⟨⟨long, first, -, -⟩, -⟩ := refusesPacket_eq_false.mp h
  exact ⟨long, first ▸ by decide⟩

/-- Without a transport checksum, what follows the header may change as it likes. -/
theorem HeaderTranslated.translated (h : HeaderTranslated old new p q)
    (patch : Patch (fun i => HeaderBytes (transportChecksum p) i ∨
      (transportChecksum p = none ∧ 20 ≤ i)) p q)
    (accepted : refusesPacket p quoted = false) : Translated old new p q := by
  obtain ⟨long, version⟩ := refusesPacket_false accepted
  have early : ∀ i < 10, ¬(HeaderBytes (transportChecksum p) i ∨
      (transportChecksum p = none ∧ 20 ≤ i)) := fun i before =>
    not_or.mpr ⟨not_headerBytes before, fun late => by omega⟩
  refine ⟨h.src, h.dst, ?_, ?_, ?_⟩
  · intro checks
    have first : byte (q.take 20) 0 ≠ 0 := by
      rw [byte_eq_of_getElem? (List.getElem?_take_of_lt (by decide)),
        patch.byte_eq 0 (early 0 (by decide))]
      exact version
    have updated := h.header.1
    rw [fold_eq_zero, wordSum_header long] at checks
    rw [fold_eq_zero]
    refine ⟨(wordSum_pos first).ne', ?_⟩
    rw [wordSum_header (by rwa [patch.length]), patch.take_eq early, Nat.add_assoc]
    refine (Nat.ModEq.add_left _ updated).trans ?_
    rw [← Nat.add_assoc]
    exact checks.2
  · intro off fits isUdp zero
    have updated := h.transport off fits
    rwa [Updated, if_pos (by simp [isUdp, zero])] at updated
  · intro off fits some extra n rest based covered inside checks
    obtain ⟨far, even, _⟩ := transportChecksum_some fits
    have updated := h.transport off fits
    rw [Updated, if_neg (by simpa using some)] at updated
    have known : Patch (HeaderBytes (transportChecksum p)) p q :=
      patch.mono fun i => (Or.resolve_right · fun late => nomatch fits.symm.trans late.1)
    have same := segment_patch known fits far n rest
    have length : ((p.take n).drop 20).length = n - 20 := by
      rw [List.length_drop, List.length_take_of_le inside]
    have field : ∀ r : Bytes, r.length = p.length →
        word ((r.take n).drop 20 ++ rest) (off - 20) = word r off := by
      intro r sized
      rw [word_append, word_drop, word_take (by omega), Nat.add_sub_cancel' far]
      rw [List.length_drop, List.length_take_of_le (by rwa [sized])]
      omega
    have moved := wordSum_patch same ((Nat.even_sub far).mpr (iff_of_true even (by decide))) (by
      rw [List.length_append]
      omega)
    rw [field p rfl, field q patch.length] at moved
    refine ⟨?_, ?_⟩
    · rw [fold_eq_zero] at checks ⊢
      unfold Nat.ModEq at *
      omega
    · rintro ⟨isUdp, zero⟩
      exact updated.2 (by simp [isUdp]) zero

/-! ## The packet and its quote -/

theorem refusesPacket_patch (patch : Patch F p q) (early : ∀ i < 10, ¬F i) :
    refusesPacket q quoted = refusesPacket p quoted := by
  simp only [refusesPacket, patch.length, patch.byte_eq 0 (early 0 (by decide)),
    patch.byte_eq 9 (early 9 (by decide)),
    patch.word_eq 2 (early 2 (by decide)) (early 3 (by decide)),
    patch.word_eq 6 (early 6 (by decide)) (early 7 (by decide))]

theorem rewriteAddresses_some (four : old.length = 4) (four' : new.length = 4)
    (h : rewriteAddresses p old new quoted = some q) :
    refusesPacket p quoted = false ∧ Patch (HeaderBytes (transportChecksum p)) p q ∧
      HeaderTranslated old new p q := by
  obtain ⟨accepted, h⟩ := Option.ite_none_left_eq_some.1 h
  have accepted := Bool.eq_false_iff.mpr accepted
  cases h
  obtain ⟨long, _⟩ := refusesPacket_false accepted
  exact ⟨accepted, rewriteFields_translated long four four'⟩

theorem rewriteAddresses_isSome (old new : Bytes) (accepted : refusesPacket p quoted = false) :
    ∃ q, rewriteAddresses p old new quoted = some q :=
  ⟨_, by rw [rewriteAddresses, accepted]; rfl⟩

/-- Only the checksum of the message and the quote change, and the message checks out. -/
theorem replaceQuote_spec {inner : Bytes} (long : 28 ≤ q.length)
    (sized : inner.length = (q.drop 28).length) :
    Patch (fun i => (22 ≤ i ∧ i < 24) ∨ 28 ≤ i) q (replaceQuote q inner) ∧
      (replaceQuote q inner).drop 28 = inner ∧
      fold (wordSum ((replaceQuote q inner).drop 20)) = 0 := by
  rw [List.length_drop] at sized
  have inside : 28 + inner.length ≤ q.length := by omega
  have quote := Patch.of_splice inside
  have tail : (splice q 28 inner).drop 28 = inner := by
    have slice := slice_splice inside
    rwa [List.take_of_length_le (by rw [List.length_drop, quote.length]; omega)] at slice
  have room : 22 + 2 ≤ (splice q 28 inner).length := by
    rw [quote.length]
    omega
  have cleared := Patch.of_setWord (x := 0) room
  have room' : 22 + 2 ≤ (setWord (splice q 28 inner) 22 0).length := by rwa [cleared.length]
  have summed := Patch.of_setWord
    (x := icmpv4Checksum ((setWord (splice q 28 inner) 22 0).drop 20)) room'
  refine ⟨?_, ?_, ?_⟩
  · refine ((quote.mono ?_).trans (cleared.mono ?_)).trans (summed.mono ?_)
    · exact fun i within => .inr within.1
    · exact fun i within => .inl within
    · exact fun i within => .inl within
  · rw [replaceQuote, summed.drop_eq fun i late => by omega, cleared.drop_eq fun i late => by omega,
      tail]
  · have written : ((splice (splice q 28 inner) (20 + 2) (beBytes 2 0)).drop (20 + 2)).take
        (beBytes 2 0).length = beBytes 2 0 := slice_splice room
    have zero : (((setWord (splice q 28 inner) 22 0).drop 20).drop 2).take 2 = [0, 0] := by
      rw [List.drop_drop]
      exact written
    rw [replaceQuote, show (22 : Nat) = 20 + 2 from rfl, drop_setWord (by exact room')]
    have filled := fold_fill 0 ((setWord (splice q 28 inner) 22 0).drop 20) even_two
      (by rw [List.length_drop]; omega) zero
    simp only [Nat.zero_add] at filled
    exact filled

theorem transportChecksum_icmp (icmp : byte p 9 = 1) : transportChecksum p = none := by
  rw [transportChecksum, checksumOffset, icmp]
  rfl

theorem not_headerBytes_icmp (icmp : byte p 9 = 1) (late : 20 ≤ i) :
    ¬HeaderBytes (transportChecksum p) i := by
  rw [transportChecksum_icmp icmp]
  rintro (within | ⟨off, fits, _⟩)
  · omega
  · cases fits

theorem icmp_of_quotes (h : quotes p = true) :
    byte p 9 = 1 ∧ byte p 20 ∈ ([3, 11, 12] : List UInt8) := by
  simpa only [quotes, Bool.and_eq_true, beq_iff_eq, decide_eq_true_eq] using h

/-- Everything a translation does, in terms of the updates. -/
structure PacketTranslated (old new p r : Bytes) : Prop where
  accepted : refusesPacket p false = false
  whole : byte p 9 = 1 → 28 ≤ p.length
  patch : Patch (fun i => HeaderBytes (transportChecksum p) i ∨
    (quotes p = true ∧ ((22 ≤ i ∧ i < 24) ∨ 28 ≤ i))) p r
  outer : HeaderTranslated old new p r
  exact : Translated old new p r
  quoted : quotes p = true → refusesPacket (p.drop 28) true = false ∧
    Patch (HeaderBytes (transportChecksum (p.drop 28))) (p.drop 28) (r.drop 28) ∧
    HeaderTranslated old new (p.drop 28) (r.drop 28) ∧ fold (wordSum (r.drop 20)) = 0

/-- Changes behind the header leave what was translated as it is. -/
theorem HeaderTranslated.congr (h : HeaderTranslated old new p q)
    (none : transportChecksum p = none)
    (late : Patch (20 ≤ ·) q r) : HeaderTranslated old new p r := by
  have slice : ∀ a n, a + n ≤ 20 → (r.drop a).take n = (q.drop a).take n := fun a n early =>
    late.slice_eq a n fun i _ before => by omega
  have sum : addressSum r = addressSum q := congrArg wordSum (slice 12 8 (by decide))
  have check := late.word_eq 10 (by decide) (by decide)
  refine ⟨(slice 12 4 (by decide)).trans h.src, (slice 16 4 (by decide)).trans h.dst, ?_, ?_⟩
  · rw [sum, check]
    exact h.header
  · intro off fits
    rw [none] at fits
    cases fits

section

variable (four : old.length = 4) (four' : new.length = 4)

include four four'

/-- The ICMP branch, in terms of the packet that came in. -/
theorem rewriteInner_eq (rewritten : rewriteAddresses p old new false = some q) :
    rewriteInner p old new false =
      if byte p 9 = 1 ∧ p.length < 28 then none
      else if quotes p = true then (rewriteAddresses (p.drop 28) old new true).map (replaceQuote q)
      else some q := by
  obtain ⟨_, patch, _⟩ := rewriteAddresses_some four four' rewritten
  have protocol := patch.byte_eq 9 (not_headerBytes (by decide))
  rw [rewriteInner, rewritten, Option.bind_some, protocol, patch.length]
  by_cases icmp : byte p 9 = 1
  · have isError : quotes p = true ↔ byte p 20 ∈ ([3, 11, 12] : List UInt8) :=
      ⟨fun error => (icmp_of_quotes error).2, fun error => by
        simpa only [quotes, Bool.and_eq_true, beq_iff_eq, decide_eq_true_eq] using ⟨icmp, error⟩⟩
    rw [if_pos icmp, patch.byte_eq 20 (not_headerBytes_icmp icmp le_rfl),
      patch.drop_eq fun i late => not_headerBytes_icmp icmp (by omega)]
    simp only [icmp, true_and, isError]
  · have notError : ¬quotes p = true := fun error => icmp (icmp_of_quotes error).1
    rw [if_neg icmp, if_neg fun cut => icmp cut.1, if_neg notError]

theorem rewriteInner_translated
    (h : rewriteInner p old new false = some r) : PacketTranslated old new p r := by
  obtain ⟨q, rewritten, _⟩ := Option.bind_eq_some_iff.mp h
  rw [rewriteInner_eq four four' rewritten] at h
  obtain ⟨accepted, patch, outer⟩ := rewriteAddresses_some four four' rewritten
  split at h
  · cases h
  next cut =>
  have whole : byte p 9 = 1 → 28 ≤ p.length := fun icmp => Nat.not_lt.mp fun short =>
    cut ⟨icmp, short⟩
  split at h
  · next error =>
    obtain ⟨icmp, _⟩ := icmp_of_quotes error
    have none := transportChecksum_icmp icmp
    obtain ⟨inner, rewritten', rfl⟩ := Option.map_eq_some_iff.mp h
    obtain ⟨accepted', patch', inner'⟩ := rewriteAddresses_some four four' rewritten'
    have sized : inner.length = (q.drop 28).length := by
      rw [patch'.length, List.length_drop, List.length_drop, patch.length]
    obtain ⟨changed, tail, checks⟩ :=
      replaceQuote_spec (by rw [patch.length]; exact whole icmp) sized
    have late : Patch (20 ≤ ·) q (replaceQuote q inner) := changed.mono (by
      rintro i (within | within) <;> omega)
    have outer := outer.congr none late
    refine ⟨accepted, whole, ?_, outer, outer.translated ?_ accepted, ?_⟩
    · exact (patch.mono fun i within => .inl within).trans
        (changed.mono fun i within => .inr ⟨error, within⟩)
    · exact (patch.mono fun i within => .inl within).trans
        (late.mono fun i within => .inr ⟨none, within⟩)
    · intro _
      rw [tail]
      exact ⟨accepted', patch', inner', checks⟩
  · next notError =>
    cases h
    exact ⟨accepted, whole, patch.mono fun i within => .inl within, outer,
      outer.translated (patch.mono fun i => .inl) accepted, fun error => absurd error notError⟩

theorem rewriteInner_isSome
    (accepted : refusesPacket p false = false) (whole : byte p 9 = 1 → 28 ≤ p.length)
    (quoted : quotes p = true → refusesPacket (p.drop 28) true = false) :
    ∃ r, rewriteInner p old new false = some r := by
  obtain ⟨q, rewritten⟩ := rewriteAddresses_isSome old new accepted
  rw [rewriteInner_eq four four' rewritten, if_neg fun cut => Nat.not_le.mpr cut.2 (whole cut.1)]
  split
  · next error =>
    obtain ⟨inner, rewritten'⟩ := rewriteAddresses_isSome old new (quoted error)
    exact ⟨_, by rw [rewritten', Option.map_some]⟩
  · exact ⟨q, rfl⟩

end

/-! ## The fields -/

theorem mem_addressFields :
    a ∈ addressFields p ↔ a = 12 ∨ a = 16 ∨ (quotes p = true ∧ (a = 28 + 12 ∨ a = 28 + 16)) := by
  unfold addressFields
  split <;> simp [*]

theorem mem_checksumFields :
    c ∈ checksumFields p ↔ c = 10 ∨ transportChecksum p = some c ∨ (quotes p = true ∧
      (c = 22 ∨ c = 28 + 10 ∨ ∃ off, transportChecksum (p.drop 28) = some off ∧ c = 28 + off)) := by
  unfold checksumFields
  split <;> simp [*, eq_comm]

theorem headerBytes_cases (h : HeaderBytes check i) :
    (∃ a, (a = 12 ∨ a = 16) ∧ a ≤ i ∧ i < a + 4) ∨
      ∃ c, (c = 10 ∨ check = some c) ∧ c ≤ i ∧ i < c + 2 := by
  rcases h with within | ⟨off, fits, within⟩
  · by_cases check : i < 12
    · exact .inr ⟨10, .inl rfl, by omega⟩
    · by_cases src : i < 16
      · exact .inl ⟨12, .inl rfl, by omega⟩
      · exact .inl ⟨16, .inr rfl, by omega⟩
  · exact .inr ⟨off, .inr fits, within⟩

/-- The fields of a header are fields of the packet. -/
theorem inFields_of_headerBytes (h : HeaderBytes (transportChecksum p) i) :
    InFields (addressFields p) 4 i ∨ InFields (checksumFields p) 2 i := by
  rcases headerBytes_cases h with ⟨a, is, within⟩ | ⟨c, is, within⟩
  · exact .inl ⟨a, mem_addressFields.mpr (is.imp_right .inl), within⟩
  · exact .inr ⟨c, mem_checksumFields.mpr (is.imp_right .inl), within⟩

theorem inFields_of_quoted (error : quotes p = true)
    (h : HeaderBytes (transportChecksum (p.drop 28)) i) :
    InFields (addressFields p) 4 (28 + i) ∨ InFields (checksumFields p) 2 (28 + i) := by
  rcases headerBytes_cases h with ⟨a, is, within⟩ | ⟨c, is, within⟩
  · exact .inl ⟨28 + a, mem_addressFields.mpr (.inr (.inr ⟨error, by omega⟩)), by omega⟩
  · refine .inr ⟨28 + c, mem_checksumFields.mpr (.inr (.inr ⟨error, .inr ?_⟩)), by omega⟩
    exact is.imp (congrArg (28 + ·)) fun fits => ⟨c, fits, rfl⟩

theorem PacketTranslated.rewrittenExactly (h : PacketTranslated old new p r) :
    RewrittenExactly old new p r := by
  refine ⟨⟨h.patch.length, fun i out => ?_⟩, h.exact, fun error => ?_, fun icmp checks => ?_⟩
  · by_cases quoted : quotes p = true ∧ 28 ≤ i
    · obtain ⟨error, late⟩ := quoted
      obtain ⟨_, patch, _⟩ := h.quoted error
      obtain ⟨j, rfl⟩ := Nat.exists_eq_add_of_le late
      have kept := patch.rest j fun within => out (inFields_of_quoted error within)
      rwa [List.getElem?_drop, List.getElem?_drop] at kept
    · refine h.patch.rest i ?_
      rintro (within | ⟨error, check | late⟩)
      · exact out (inFields_of_headerBytes within)
      · exact out (.inr ⟨22, mem_checksumFields.mpr (.inr (.inr ⟨error, .inl rfl⟩)), check⟩)
      · exact quoted ⟨error, late⟩
  · obtain ⟨accepted, patch, inner, _⟩ := h.quoted error
    exact inner.translated (patch.mono fun i => .inl) accepted
  · by_cases error : quotes p = true
    · exact (h.quoted error).2.2.2
    · rw [h.patch.drop_eq]
      · exact checks
      rintro i late (within | ⟨quoted, _⟩)
      · exact not_headerBytes_icmp icmp late within
      · exact error quoted

/-! ## There and back -/

theorem PacketTranslated.early (h : PacketTranslated old new p r) :
    ∀ i < 10, byte r i = byte p i := by
  intro i before
  refine h.patch.byte_eq i ?_
  rintro (within | ⟨_, late⟩)
  · exact not_headerBytes before within
  · omega

theorem transportChecksum_congr (length : q.length = p.length) (protocol : byte q 9 = byte p 9) :
    transportChecksum q = transportChecksum p := by
  rw [transportChecksum, transportChecksum, checksumOffset, checksumOffset, protocol, length]

theorem PacketTranslated.quotes_eq (h : PacketTranslated old new p r) : quotes r = quotes p := by
  have protocol := h.early 9 (by decide)
  by_cases icmp : byte p 9 = 1
  · have kind : byte r 20 = byte p 20 := h.patch.byte_eq 20 (by
      rintro (within | ⟨_, within⟩)
      · exact not_headerBytes_icmp icmp le_rfl within
      · omega)
    rw [quotes, quotes, protocol, kind]
  · have other : (byte p 9 == 1) = false := beq_false_of_ne icmp
    rw [quotes, quotes, protocol, other, Bool.false_and, Bool.false_and]

theorem PacketTranslated.back_isSome (h : PacketTranslated old new p r) (four : old.length = 4)
    (four' : new.length = 4) : ∃ s, rewriteInner r new old false = some s := by
  refine rewriteInner_isSome four' four ?_ ?_ ?_
  · rw [refusesPacket_patch h.patch, h.accepted]
    rintro i before (within | ⟨_, late⟩)
    · exact not_headerBytes before within
    · omega
  · rw [h.early 9 (by decide), h.patch.length]
    exact h.whole
  · rw [h.quotes_eq]
    intro error
    obtain ⟨accepted, patch, _⟩ := h.quoted error
    rwa [refusesPacket_patch patch fun i before => not_headerBytes before]

theorem swapAddress_back (fresh : address ≠ new ∨ old = new) :
    swapAddress new old (swapAddress old new address) = address := by
  unfold swapAddress
  by_cases replaced : address = old
  · rw [if_pos replaced, if_pos rfl, replaced]
  · rw [if_neg replaced]
    rcases fresh with fresh | same
    · exact if_neg fresh
    · exact if_neg (same ▸ replaced)

theorem swapAddress_forth : swapAddress new old (swapAddress old new new) = old := by
  have kept : swapAddress old new new = new := by
    unfold swapAddress
    split <;> rfl
  rw [kept, swapAddress, if_pos rfl]

/-- Translating a header back restores the addresses, and with them the checksums. -/
theorem HeaderTranslated.back (there : HeaderTranslated old new p r)
    (back : HeaderTranslated new old r s) (length : r.length = p.length)
    (length' : s.length = r.length) (protocol : byte r 9 = byte p 9) (long : 20 ≤ p.length)
    (fresh : ∀ a, a = 12 ∨ a = 16 → (p.drop a).take 4 ≠ new ∨ old = new) :
    (∀ a, a = 12 ∨ a = 16 → (s.drop a).take 4 = (p.drop a).take 4) ∧
      (word s 10).toNat ≡ (word p 10).toNat [MOD 65535] ∧
      ∀ off, transportChecksum p = some off →
        (word s off).toNat ≡ (word p off).toNat [MOD 65535] := by
  have addresses : ∀ a, a = 12 ∨ a = 16 → (s.drop a).take 4 = (p.drop a).take 4 := by
    rintro a (rfl | rfl)
    · rw [back.src, there.src, swapAddress_back (fresh 12 (.inl rfl))]
    · rw [back.dst, there.dst, swapAddress_back (fresh 16 (.inr rfl))]
  have sum : addressSum s = addressSum p := by
    rw [addressSum_eq long, addressSum_eq (by rwa [length', length]), addresses 12 (.inl rfl),
      addresses 16 (.inr rfl)]
  have cancels : addressSum p + (addressSum p + addressSum r) =
      addressSum p + (addressSum r + addressSum s) := by
    rw [sum, Nat.add_comm (addressSum p) (addressSum r)]
  refine ⟨addresses, ((there.header.trans back.header).shift cancels).modEq, fun off fits => ?_⟩
  have second := back.transport off (by rwa [transportChecksum_congr length protocol])
  rw [protocol] at second
  exact (((there.transport off fits).trans second).shift cancels).modEq

theorem PacketTranslated.fields_eq (h : PacketTranslated old new p r) :
    addressFields r = addressFields p ∧ checksumFields r = checksumFields p := by
  have outer := transportChecksum_congr h.patch.length (h.early 9 (by decide))
  refine ⟨by rw [addressFields, addressFields, h.quotes_eq], ?_⟩
  rw [checksumFields, checksumFields, h.quotes_eq, outer]
  by_cases error : quotes p = true
  · obtain ⟨_, patch, _⟩ := h.quoted error
    rw [transportChecksum_congr patch.length (patch.byte_eq 9 (not_headerBytes (by decide)))]
  · rw [if_neg error, if_neg error]

/-- Each address goes through both translations. -/
theorem PacketTranslated.address (there : PacketTranslated old new p r)
    (back : PacketTranslated new old r s) (member : a ∈ addressFields p) :
    (s.drop a).take 4 = swapAddress new old (swapAddress old new ((p.drop a).take 4)) := by
  rcases mem_addressFields.mp member with rfl | rfl | ⟨error, field⟩
  · rw [back.outer.src, there.outer.src]
  · rw [back.outer.dst, there.outer.dst]
  · obtain ⟨_, _, out, _⟩ := there.quoted error
    obtain ⟨_, _, home, _⟩ := back.quoted (there.quotes_eq.trans error)
    rcases field with rfl | rfl <;> rw [← List.drop_drop, ← List.drop_drop]
    · rw [home.src, out.src]
    · rw [home.dst, out.dst]

/-- No checksum lies in an address. -/
theorem not_inChecksums (member : a ∈ addressFields p) (from' : a ≤ i) (before' : i < a + 4) :
    ¬InFields (checksumFields p) 2 i := by
  rintro ⟨c, check, within⟩
  rw [mem_addressFields] at member
  rcases mem_checksumFields.mp check with rfl | fits | ⟨_, rfl | rfl | ⟨off, fits, rfl⟩⟩
  · omega
  · have far := (transportChecksum_some fits).1
    rcases member with rfl | rfl | ⟨error, _⟩
    · omega
    · omega
    · rw [transportChecksum_icmp (icmp_of_quotes error).1] at fits
      cases fits
  · omega
  · omega
  · have far := (transportChecksum_some fits).1
    omega

theorem even_checksum (check : c ∈ checksumFields p) : Even c := by
  rcases mem_checksumFields.mp check with rfl | fits | ⟨_, rfl | rfl | ⟨off, fits, rfl⟩⟩
  · decide
  · exact (transportChecksum_some fits).2.1
  · decide
  · decide
  · exact Even.add (by decide) (transportChecksum_some fits).2.1

theorem words_modEq (patch : Patch (InFields (checksumFields p) 2) p s)
    (checks : ∀ c ∈ checksumFields p, c ≠ 22 → (word s c).toNat ≡ (word p c).toNat [MOD 65535])
    (even : Even j) (other : j ≠ 22) :
    (word s j).toNat ≡ (word p j).toNat [MOD 65535] := by
  by_cases check : j ∈ checksumFields p
  · exact checks j check other
  · -- checksums start at even places, so a word is one or meets none
    have apart : ∀ i, i = j ∨ i = j + 1 → ¬InFields (checksumFields p) 2 i := by
      rintro i here ⟨c, member, within⟩
      have evenCheck := even_checksum member
      obtain rfl : c = j := by
        rw [Nat.even_iff] at even evenCheck
        omega
      exact check member
    rw [patch.word_eq j (apart j (.inl rfl)) (apart (j + 1) (.inr rfl))]

/-- Two messages that check out and agree elsewhere have the same checksum. -/
theorem icmpChecksum_modEq (long : 28 ≤ p.length)
    (patch : Patch (InFields (checksumFields p) 2) p s)
    (checks : ∀ c ∈ checksumFields p, c ≠ 22 → (word s c).toNat ≡ (word p c).toNat [MOD 65535])
    (valid : fold (wordSum (p.drop 20)) = 0) (valid' : fold (wordSum (s.drop 20)) = 0) :
    (word s 22).toNat ≡ (word p 22).toNat [MOD 65535] := by
  have split : ∀ x : Bytes, x.length = p.length → wordSum (x.drop 20) =
      (word x 20).toNat + (word x 22).toNat + wordSum (x.drop 24) := by
    intro x sized
    have inside : 20 + 2 ≤ x.length := by omega
    have inside' : 22 + 2 ≤ x.length := by omega
    rw [wordSum_split (x.drop 20) even_two even_two (by rw [List.length_drop]; omega),
      List.drop_drop, List.drop_drop]
    simp only [Nat.reduceAdd]
    rw [wordSum_slice_two inside', wordSum_slice_two inside]
  have tail : wordSum (s.drop 24) ≡ wordSum (p.drop 24) [MOD 65535] := by
    refine wordSum_modEq (by rw [List.length_drop, List.length_drop, patch.length]) fun i => ?_
    rw [word_drop, word_drop]
    exact words_modEq patch checks (Even.add (by decide) (even_two_mul i)) (by omega)
  have head := words_modEq patch checks (show Even 20 by decide) (by decide)
  rw [fold_eq_zero, split p rfl] at valid
  rw [fold_eq_zero, split s patch.length] at valid'
  unfold Nat.ModEq at *
  omega

variable (there : PacketTranslated old new p r) (back : PacketTranslated new old r s)

include there back

theorem PacketTranslated.same_of_fresh (valid : byte p 9 = 1 → fold (wordSum (p.drop 20)) = 0)
    (fresh : ∀ a ∈ addressFields p, (p.drop a).take 4 ≠ new ∨ old = new) : SamePacket p s := by
  obtain ⟨addresses, checksums⟩ := there.fields_eq
  have length : s.length = p.length := back.patch.length.trans there.patch.length
  have patch : Patch (InFields (checksumFields p) 2) p s := by
    refine ⟨length, fun i out => ?_⟩
    by_cases address : InFields (addressFields p) 4 i
    · obtain ⟨a, member, from', before'⟩ := address
      obtain ⟨j, rfl⟩ := Nat.exists_eq_add_of_le from'
      have slice : (s.drop a).take 4 = (p.drop a).take 4 := by
        rw [there.address back member, swapAddress_back (fresh a member)]
      have read := congrArg (·[j]?) slice
      simpa only [List.getElem?_take_of_lt (show j < 4 by omega), List.getElem?_drop] using read
    · have second := back.rewrittenExactly.patch.rest i
      rw [addresses, checksums] at second
      exact (second (not_or.mpr ⟨address, out⟩)).trans
        (there.rewrittenExactly.patch.rest i (not_or.mpr ⟨address, out⟩))
  obtain ⟨long, _⟩ := refusesPacket_false there.accepted
  obtain ⟨_, header, transport⟩ := there.outer.back back.outer there.patch.length back.patch.length
    (there.early 9 (by decide)) long
    fun a isAddress => fresh a (mem_addressFields.mpr (isAddress.imp_right .inl))
  have inner : quotes p = true → (word s (28 + 10)).toNat ≡ (word p (28 + 10)).toNat [MOD 65535] ∧
      ∀ off, transportChecksum (p.drop 28) = some off →
        (word s (28 + off)).toNat ≡ (word p (28 + off)).toNat [MOD 65535] := by
    intro error
    obtain ⟨accepted, first, out, _⟩ := there.quoted error
    obtain ⟨_, second, home, _⟩ := back.quoted (there.quotes_eq.trans error)
    obtain ⟨_, header, transport⟩ := out.back home first.length second.length
      (first.byte_eq 9 (not_headerBytes (by decide))) (refusesPacket_false accepted).1 (by
        intro a isAddress
        have member : 28 + a ∈ addressFields p :=
          mem_addressFields.mpr (.inr (.inr ⟨error, by omega⟩))
        rw [List.drop_drop]
        exact fresh _ member)
    rw [word_drop, word_drop] at header
    refine ⟨header, fun off fits => ?_⟩
    have checked := transport off fits
    rwa [word_drop, word_drop] at checked
  have known : ∀ c ∈ checksumFields p, c ≠ 22 →
      (word s c).toNat ≡ (word p c).toNat [MOD 65535] := by
    intro c member other
    rcases mem_checksumFields.mp member with rfl | fits | ⟨error, rfl | rfl | ⟨off, fits, rfl⟩⟩
    · exact header
    · exact transport c fits
    · exact absurd rfl other
    · exact (inner error).1
    · exact (inner error).2 off fits
  refine ⟨patch, fun c member => ?_⟩
  by_cases icmp : c = 22
  · subst icmp
    rcases mem_checksumFields.mp member with impossible | fits | ⟨error, _⟩
    · cases impossible
    · exact absurd rfl (checksumOffset_some (Option.filter_eq_some_iff.mp fits).1).2.2
    · obtain ⟨isIcmp, _⟩ := icmp_of_quotes error
      exact icmpChecksum_modEq (there.whole isIcmp) patch known (valid isIcmp)
        (back.quoted (there.quotes_eq.trans error)).2.2.2
  · exact known c member icmp

/-- There and back gives the packet one started from exactly when none of its addresses is the
one that was put in. -/
theorem PacketTranslated.same_iff (valid : byte p 9 = 1 → fold (wordSum (p.drop 20)) = 0) :
    SamePacket p s ↔ (∀ a ∈ addressFields p, (p.drop a).take 4 ≠ new) ∨ old = new := by
  constructor
  · intro same
    by_cases trivial : old = new
    · exact .inr trivial
    · refine .inl fun a member isNew => trivial ?_
      have kept := same.patch.slice_eq a 4 fun i from' before' =>
        not_inChecksums member from' before'
      rw [there.address back member, isNew, swapAddress_forth] at kept
      exact kept
  · intro fresh
    refine there.same_of_fresh back valid fun a member => ?_
    rcases fresh with fresh | trivial
    · exact .inl (fresh a member)
    · exact .inr trivial

end Header

theorem ipv4Octets_inj : ipv4Octets a = ipv4Octets b ↔ a = b :=
  ⟨fun same => by rw [← beNat_ipv4Octets a, same, beNat_ipv4Octets], congrArg ipv4Octets⟩

/-- The packets that are translated. -/
theorem rewrite_isSome_iff (p : Bytes) (old new : Ipv4Addr) :
    (rewrite p old new).isSome ↔ Translatable p := by
  rw [Option.isSome_iff_exists]
  constructor
  · rintro ⟨p', rewritten⟩
    have there := rewriteInner_translated (length_ipv4Octets old) (length_ipv4Octets new) rewritten
    obtain ⟨plain, outer⟩ := refusesPacket_eq_false.mp there.accepted
    obtain ⟨whole, tcp, udp⟩ := outer rfl
    exact ⟨plain, whole, tcp, udp, there.whole,
      fun error => (refusesPacket_eq_false.mp (there.quoted error).1).1⟩
  · intro h
    exact rewriteInner_isSome (length_ipv4Octets old) (length_ipv4Octets new)
      (refusesPacket_eq_false.mpr ⟨h.toPlainHeader, fun _ => ⟨h.whole, h.tcp, h.udp⟩⟩) h.icmp
      fun error => refusesPacket_eq_false.mpr ⟨h.quote error, nofun⟩

/-- Exit translation is exact. It takes the packets that `Translatable` describes. Of these only
the addresses and the checksums change, what checked out still does, and translating back
succeeds; it gives the same packet up to the two ways to write a checksum of zero, exactly when
the new address was not already one of the packet's. -/
theorem exit_rewrite_exact (p : Bytes) (old new : Ipv4Addr) :
    ((rewrite p old new).isSome ↔ Translatable p) ∧
    ∀ p', rewrite p old new = some p' →
      RewrittenExactly (ipv4Octets old) (ipv4Octets new) p p' ∧
      ∃ p'', rewrite p' new old = some p'' ∧
        RewrittenExactly (ipv4Octets new) (ipv4Octets old) p' p'' ∧
        ((byte p 9 = 1 → fold (wordSum (p.drop 20)) = 0) →
          (SamePacket p p'' ↔
            (∀ a ∈ addressFields p, (p.drop a).take 4 ≠ ipv4Octets new) ∨ old = new)) := by
  refine ⟨rewrite_isSome_iff p old new, fun p' rewritten => ?_⟩
  have there := rewriteInner_translated (length_ipv4Octets old) (length_ipv4Octets new) rewritten
  obtain ⟨p'', returned⟩ := there.back_isSome (length_ipv4Octets old) (length_ipv4Octets new)
  have back := rewriteInner_translated (length_ipv4Octets new) (length_ipv4Octets old) returned
  refine ⟨there.rewrittenExactly, p'', returned, back.rewrittenExactly, fun valid => ?_⟩
  rw [there.same_iff back valid, ipv4Octets_inj]

/-- A UDP datagram of an exit client to 8.8.8.8, port 1000 to port 53, without a checksum. -/
def exitDatagram : Bytes :=
  [0x45, 0, 0, 28, 0, 0, 0, 0, 64, 17, 0xAA, 0xBF, 192, 0, 0, 2, 8, 8, 8, 8] ++
    [3, 232, 0, 53, 0, 8, 0, 0]

/-- The lease 10.65.0.1. -/
def firstLease : Ipv4Addr := 0x0a410001

theorem exit_rewrite_exact_datagram :
    ∃ p' p'', rewrite exitDatagram wireClientAddr firstLease = some p' ∧
      rewrite p' firstLease wireClientAddr = some p'' ∧
      fold (wordSum (exitDatagram.take 20)) = 0 ∧ SamePacket exitDatagram p'' := by
  obtain ⟨taken, exact⟩ := exit_rewrite_exact exitDatagram wireClientAddr firstLease
  have plain : PlainHeader exitDatagram := by constructor <;> decide +kernel
  have whole : Translatable exitDatagram := by
    refine ⟨plain, ?_, ?_, ?_, ?_, fun error => absurd error ?_⟩ <;> decide +kernel
  obtain ⟨p', rewritten⟩ := Option.isSome_iff_exists.mp (taken.mpr whole)
  obtain ⟨_, p'', returned, _, same⟩ := exact p' rewritten
  refine ⟨p', p'', rewritten, returned, by decide +kernel, (same (by decide +kernel)).mpr ?_⟩
  exact .inl (by decide +kernel)

/-- The client's ICMP error to 8.8.8.8 about a datagram from there to the lease. -/
def leaseQuote : Bytes :=
  [0x45, 0, 0, 56, 0, 0, 0, 0, 64, 1, 0xAA, 0xB3, 192, 0, 0, 2, 8, 8, 8, 8] ++
    [3, 3, 0xF8, 0xD7, 0, 0, 0, 0] ++
    [0x45, 0, 0, 28, 0, 0, 0, 0, 64, 17, 0x60, 0x80, 8, 8, 8, 8, 10, 65, 0, 1] ++
    [0, 53, 3, 232, 0, 8, 0, 0]

/-- A quoted datagram to the lease comes back as one to the client, though every checksum was
right. -/
theorem lease_not_restored :
    fold (wordSum (leaseQuote.take 20)) = 0 ∧ fold (wordSum (leaseQuote.drop 20)) = 0 ∧
      fold (wordSum ((leaseQuote.drop 28).take 20)) = 0 ∧
      isTransitable (.v4 (ipv4At leaseQuote 16)) = true ∧
      ∃ p' p'', rewrite leaseQuote wireClientAddr firstLease = some p' ∧
        rewrite p' firstLease wireClientAddr = some p'' ∧
        (leaseQuote.drop (28 + 16)).take 4 = ipv4Octets firstLease ∧
        (p''.drop (28 + 16)).take 4 = ipv4Octets wireClientAddr ∧ ¬SamePacket leaseQuote p'' := by
  refine ⟨by decide +kernel, by decide +kernel, by decide +kernel, by decide +kernel, ?_⟩
  have quoted : (leaseQuote.drop (28 + 16)).take 4 = ipv4Octets firstLease := by decide +kernel
  have changed : (((rewrite leaseQuote wireClientAddr firstLease).bind
      fun p' => rewrite p' firstLease wireClientAddr).map fun p'' => (p''.drop (28 + 16)).take 4) =
        some (ipv4Octets wireClientAddr) := by decide +kernel
  obtain ⟨p'', back, address⟩ := Option.map_eq_some_iff.mp changed
  obtain ⟨p', rewritten, returned⟩ := Option.bind_eq_some_iff.mp back
  refine ⟨p', p'', rewritten, returned, quoted, address, fun same => ?_⟩
  have field : 28 + 16 ∈ addressFields leaseQuote := by decide +kernel
  have kept := same.patch.slice_eq (28 + 16) 4 fun i from' before' =>
    not_inChecksums field from' before'
  rw [address, quoted] at kept
  exact absurd kept (by decide +kernel)

end Rayfish
