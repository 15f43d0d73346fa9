import Rayfish.Forward.Assembly

/-!
# What encoding sends

`encode` succeeds exactly when `wireSize` does (`encode_isSome_iff`), its datagrams
fit and add up to it (`encode_lengths`), and each of them reads back as the frame it
was written from (`readFrame_tagDatagram`, `readFrame_part`).
-/

namespace Rayfish

open Lib

/-! ## Encoding -/

/-- One datagram of a split packet. -/
def fragmentPart (handle : UInt16) (id : UInt64) (packet : Bytes) (chunk index : Nat) : Bytes :=
  fragmentDatagram handle id packet.length (index * chunk)
    ((packet.drop (index * chunk)).take chunk)

@[simp] theorem fragmentDatagram_length (handle : UInt16) (id : UInt64) (total offset : Nat)
    (payload : Bytes) :
    (fragmentDatagram handle id total offset payload).length =
      fragmentHeaderLen + payload.length := by
  simp [fragmentDatagram, fragmentHeaderLen, tagLen]
  omega

def fragmentParts (handle : UInt16) (id : UInt64) (packet : Bytes) (chunk : Nat) : List Bytes :=
  (List.range (fragmentCount packet.length chunk)).map (fragmentPart handle id packet chunk)

/-- A packet that travels in pieces of `chunk` bytes. -/
structure Split (handle : UInt16) (packet : Bytes) (chunk : Nat) : Prop where
  tagged : handle ≠ 0
  nonempty : 0 < packet.length
  short : packet.length ≤ maxPacket
  positive : 0 < chunk
  large : chunk + fragmentHeaderLen < packet.length + tagLen

variable {handle : UInt16}

/-- What a successful encoding is: the tagged packet, or its parts. -/
theorem encode_some {packet : Bytes} {max : Nat} {id : UInt64} {enc : Encoded}
    (h : encode handle packet max id = some enc) :
    (handle ≠ 0 ∧ 0 < packet.length ∧ packet.length ≤ maxPacket ∧
        packet.length + tagLen ≤ max ∧ enc.datagrams = [tagDatagram handle packet] ∧
        wireSize packet.length max = some (packet.length + tagLen)) ∨
      ∃ chunk, Split handle packet chunk ∧ max = chunk + fragmentHeaderLen ∧
        enc.datagrams = fragmentParts handle id packet chunk ∧
        wireSize packet.length max =
          some (packet.length + fragmentCount packet.length chunk * fragmentHeaderLen) := by
  obtain ⟨size, sized, h⟩ := Option.bind_eq_some_iff.mp h
  split at h
  · cases h
  next tagged =>
  have sized' := sized
  unfold wireSize at sized'
  split at sized'
  · cases sized'
  split at h
  · next fits =>
    rw [if_pos fits] at sized'
    cases h
    exact .inl ⟨tagged, by omega, by omega, fits, rfl, sized.trans sized'.symm⟩
  · next large =>
    rw [if_neg large] at sized'
    split at sized'
    · cases sized'
    dsimp only at sized'
    split at sized'
    · cases h
      exact .inr ⟨max - fragmentHeaderLen,
        ⟨tagged, by omega, by omega, by omega, by omega⟩, by omega, rfl,
        sized.trans sized'.symm⟩
    · cases sized'

theorem encode_isSome_iff (packet : Bytes) (max : Nat) (id : UInt64) (tagged : handle ≠ 0) :
    (encode handle packet max id).isSome ↔ (wireSize packet.length max).isSome := by
  unfold encode
  cases wireSize packet.length max with
  | none => simp
  | some size =>
    simp only [if_neg tagged, Option.isSome_some, iff_true]
    split <;> rfl

theorem parts_sum (header len chunk n : Nat) :
    ((List.range n).map fun i => header + min chunk (len - i * chunk)).sum =
      n * header + min len (n * chunk) := by
  induction n with
  | zero => simp
  | succ n ih =>
    rw [List.range_succ, List.map_append, List.sum_append, List.map_singleton, List.sum_singleton,
      Nat.succ_mul, Nat.succ_mul]
    omega

theorem fragmentCount_spec (positive : 0 < chunk) (nonempty : 0 < len) :
    len ≤ fragmentCount len chunk * chunk ∧ ∀ i, i < fragmentCount len chunk ↔ i * chunk < len := by
  unfold fragmentCount
  have split := Nat.div_add_mod (len + chunk - 1) chunk
  have small := Nat.mod_lt (len + chunk - 1) positive
  generalize hq : (len + chunk - 1) / chunk = q at *
  rw [Nat.mul_comm] at split
  refine ⟨by omega, fun i => ?_⟩
  constructor
  · intro hi
    have : (i + 1) * chunk ≤ q * chunk := Nat.mul_le_mul_right _ hi
    rw [Nat.succ_mul] at this
    omega
  · by_contra hge
    have : q * chunk ≤ i * chunk := Nat.mul_le_mul_right _ (by omega)
    omega

/-- Every datagram fits, and together they cost what `wireSize` says. -/
theorem encode_lengths {packet : Bytes} {max : Nat} {id : UInt64} {enc : Encoded}
    (h : encode handle packet max id = some enc) :
    (∀ d ∈ enc.datagrams, d.length ≤ max) ∧
      wireSize packet.length max = some (enc.datagrams.map List.length).sum := by
  obtain ⟨_, _, _, fits, parts, sized⟩ | ⟨chunk, split, hmax, parts, sized⟩ := encode_some h
  · have length : (tagDatagram handle packet).length = packet.length + tagLen := by
      simp [tagDatagram, tagLen]
      omega
    rw [parts, sized]
    constructor
    · intro d member
      rw [List.mem_singleton.mp member]
      exact fits
    · simp [length]
  · have partLength : ∀ i, (fragmentPart handle id packet chunk i).length =
        fragmentHeaderLen + min chunk (packet.length - i * chunk) := by
      simp [fragmentPart]
    rw [parts, sized]
    constructor
    · intro d member
      obtain ⟨i, _, rfl⟩ := List.mem_map.mp member
      rw [partLength]
      omega
    · simp only [fragmentParts, List.map_map, Function.comp_def, partLength]
      rw [parts_sum, min_eq_left (fragmentCount_spec split.positive split.nonempty).1, Nat.add_comm]

/-! ## Frames -/

theorem readFrame_tagDatagram (tagged : handle ≠ 0) (nonempty : 0 < packet.length)
    (short : packet.length ≤ maxPacket)
    (version : byte packet 0 >>> 4 = 4 ∨ byte packet 0 >>> 4 = 6) :
    readFrame (tagDatagram handle packet) = .whole packet := by
  have length : (tagDatagram handle packet).length = tagLen + packet.length := by
    simp [tagDatagram, tagLen]
  have first : byte (tagDatagram handle packet) tagLen = byte packet 0 :=
    byte_eq_of_getElem? (by rw [tagDatagram, List.getElem?_append_right] <;> simp [tagLen])
  have handle_eq : be16 (byte (tagDatagram handle packet) 0) (byte (tagDatagram handle packet) 1) =
      handle := by
    simpa [tagDatagram] using be16_beBytes [] packet handle.toNat
  unfold readFrame
  rw [if_neg (by omega), handle_eq]
  rw [if_neg tagged, first, if_pos version]
  simp [tagDatagram, tagLen]

theorem readFrame_fragmentDatagram {id : UInt64} {total offset : Nat} {payload : Bytes}
    (tagged : handle ≠ 0) (total_small : total < 65536) (offset_small : offset < 65536)
    (nonempty : 0 < payload.length)
    (short : fragmentHeaderLen + payload.length ≤ maxPacket + tagLen) :
    readFrame (fragmentDatagram handle id total offset payload) =
      .fragment ⟨⟨handle, id⟩, total, offset, payload⟩ := by
  generalize hd : fragmentDatagram handle id total offset payload = datagram
  have length : datagram.length = fragmentHeaderLen + payload.length := by
    rw [← hd, fragmentDatagram_length]
  have handle_eq : be16 (byte datagram 0) (byte datagram 1) = handle := by
    have := be16_beBytes [] ([0] ++ beBytes 8 id.toNat ++ beBytes 2 total ++ beBytes 2 offset ++
      payload) handle.toNat
    simpa [← hd, fragmentDatagram] using this
  have marker : byte datagram tagLen = 0 :=
    byte_of_getElem? (by simp [← hd, fragmentDatagram, tagLen])
  have id_eq : UInt64.ofNat (beNat ((datagram.drop 3).take 8)) = id := by
    have := take_drop_beBytes (beBytes 2 handle.toNat ++ [0])
      (beBytes 2 total ++ beBytes 2 offset ++ payload) 8 id.toNat
    have field : (datagram.drop 3).take 8 = beBytes 8 id.toNat := by
      simpa [← hd, fragmentDatagram] using this
    rw [field, beNat_beBytes]
    simp
  have total_eq : (be16 (byte datagram 11) (byte datagram 12)).toNat = total := by
    have := be16_beBytes (beBytes 2 handle.toNat ++ [0] ++ beBytes 8 id.toNat)
      (beBytes 2 offset ++ payload) total
    have field : be16 (byte datagram 11) (byte datagram 12) = UInt16.ofNat total := by
      simpa [← hd, fragmentDatagram] using this
    rw [field]
    exact Nat.mod_eq_of_lt total_small
  have offset_eq : (be16 (byte datagram 13) (byte datagram 14)).toNat = offset := by
    have := be16_beBytes (beBytes 2 handle.toNat ++ [0] ++ beBytes 8 id.toNat ++ beBytes 2 total)
      payload offset
    have field : be16 (byte datagram 13) (byte datagram 14) = UInt16.ofNat offset := by
      simpa [← hd, fragmentDatagram] using this
    rw [field]
    exact Nat.mod_eq_of_lt offset_small
  have payload_eq : datagram.drop fragmentHeaderLen = payload := by
    rw [← hd]
    exact List.drop_left' (by simp [fragmentHeaderLen, tagLen])
  have header : tagLen ≤ fragmentHeaderLen := by decide
  unfold readFrame
  rw [if_neg (by omega), handle_eq]
  rw [if_neg tagged, marker, if_neg (by decide), if_neg (not_or.mpr ⟨by simp, by omega⟩), id_eq,
    total_eq, offset_eq, payload_eq]

/-! ## The parts of a split packet -/

/-- The frame of one part. -/
def partFrame (handle : UInt16) (id : UInt64) (packet : Bytes) (chunk index : Nat) :
    FragmentFrame :=
  ⟨⟨handle, id⟩, packet.length, index * chunk, (packet.drop (index * chunk)).take chunk⟩

section Parts

variable {handle : UInt16} {id : UInt64} {packet : Bytes} {chunk : Nat}

theorem mem_fragmentParts (split : Split handle packet chunk) :
    p ∈ fragmentParts handle id packet chunk ↔
      ∃ j, j * chunk < packet.length ∧ fragmentPart handle id packet chunk j = p := by
  simp only [fragmentParts, List.mem_map, List.mem_range,
    (fragmentCount_spec split.positive split.nonempty).2]

variable {j : Nat}

theorem length_part (packet : Bytes) (chunk j : Nat) :
    ((packet.drop (j * chunk)).take chunk).length = min chunk (packet.length - j * chunk) := by
  simp

section

variable (split : Split handle packet chunk)

include split

section

variable (hj : j * chunk < packet.length)

include hj

theorem readFrame_part :
    readFrame (fragmentPart handle id packet chunk j) =
      .fragment (partFrame handle id packet chunk j) := by
  have short := split.short
  have positive := split.positive
  have large := split.large
  have limit : maxPacket = 1500 := rfl
  have payload := length_part packet chunk j
  exact readFrame_fragmentDatagram split.tagged (by omega) (by omega) (by omega) (by omega)

theorem partFrame_wellFormed : (partFrame handle id packet chunk j).WellFormed := by
  refine ⟨split.nonempty, split.short, ?_⟩
  have payload := length_part packet chunk j
  show j * chunk + ((packet.drop (j * chunk)).take chunk).length ≤ packet.length
  omega

theorem fragmentPart_inj {k : Nat} (hk : k * chunk < packet.length)
    (same : fragmentPart handle id packet chunk j = fragmentPart handle id packet chunk k) :
    j = k := by
  have frames := congrArg readFrame same
  rw [readFrame_part split hj, readFrame_part split hk] at frames
  have offsets : j * chunk = k * chunk := congrArg FragmentFrame.offset (Frame.fragment.inj frames)
  exact Nat.eq_of_mul_eq_mul_right split.positive offsets

end

/-- The part that holds byte `i` is number `i / chunk`. -/
theorem part_holds_iff (hi : i < packet.length) :
    (j * chunk ≤ i ∧ i < j * chunk + ((packet.drop (j * chunk)).take chunk).length) ↔
      i / chunk = j := by
  have payload := length_part packet chunk j
  have lower : j ≤ i / chunk ↔ j * chunk ≤ i := Nat.le_div_iff_mul_le split.positive
  have upper : i / chunk < j + 1 ↔ i < (j + 1) * chunk := Nat.div_lt_iff_lt_mul split.positive
  rw [Nat.succ_mul] at upper
  omega

end

theorem part_start_lt (hi : i < packet.length) : i / chunk * chunk < packet.length :=
  lt_of_le_of_lt (Nat.div_mul_le_self i chunk) hi

end Parts

end Rayfish
