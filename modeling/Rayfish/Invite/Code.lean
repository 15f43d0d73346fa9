import Rayfish.Addr
import Rayfish.Lib.Base58

/-!
# Invite codes

An invite code is the base58 text of a network key, a coordinator key, a 16-byte secret
and four bytes of the payload's hash (`ray-proto/src/invite.rs`). Codes without the four
bytes, from older builds, still decode.

The hash and the check that 32 bytes are a key are parameters. A code decodes to what was
encoded. Cutting characters off its end divides its number by a power of 58, and after five
or six characters the rest can be as long as an older code, whose bytes nothing checks:
`invite_code_self_checking_iff` says when every cut code is refused, and
`cut_code_accepted` cuts a code that is taken, whatever the hash.
-/

namespace Rayfish

open Lib

def secretLen : Nat := 16

def maxCodeLen : Nat := 120

/-- Two keys and the secret. -/
def payloadLen : Nat := 32 + 32 + secretLen

def checksumLen : Nat := 4

structure DecodedInvite where
  networkKey : EndpointId
  coordinator : EndpointId
  secret : Bytes

inductive CodeError where
  | tooLong
  | base58 (error : Base58Error)
  | checksumMismatch
  /-- Expected 84 bytes, got `len`. -/
  | wrongLength (len : Nat)
  | networkKey
  | coordinator

def endpointBytes (id : EndpointId) : Bytes := beBytes 32 id.toNat

/-- The key that 32 bytes spell. -/
def endpointAt (bytes : Bytes) : EndpointId := BitVec.ofNat 256 (beNat bytes)

section

variable (isKey : EndpointId → Bool) (blake3 : Bytes → BitVec 256)

def endpointFromBytes (bytes : Bytes) : Option EndpointId :=
  if isKey (endpointAt bytes) then some (endpointAt bytes) else none

def inviteChecksum (payload : Bytes) : Bytes :=
  (beBytes 32 (blake3 payload).toNat).take checksumLen

section

variable (networkPubkey coordinator : EndpointId)

def codePayload (secret : Bytes) : Bytes :=
  endpointBytes networkPubkey ++ endpointBytes coordinator ++ secret

def codeBytes (secret : Bytes) : Bytes :=
  codePayload networkPubkey coordinator secret ++
    inviteChecksum blake3 (codePayload networkPubkey coordinator secret)

def encodeInviteCode (secret : Bytes) : List Char :=
  bs58Encode (codeBytes blake3 networkPubkey coordinator secret)

end

/-- The payload of decoded bytes, by their length. -/
def checkedPayload (bytes : Bytes) : Except CodeError Bytes :=
  if bytes.length = payloadLen then .ok bytes
  else if bytes.length = payloadLen + checksumLen then
    if bytes.drop payloadLen ≠ inviteChecksum blake3 (bytes.take payloadLen) then
      .error .checksumMismatch
    else .ok (bytes.take payloadLen)
  else .error (.wrongLength bytes.length)

def payloadInvite (payload : Bytes) : Except CodeError DecodedInvite :=
  match endpointFromBytes isKey (payload.take 32) with
  | none => .error .networkKey
  | some networkKey =>
    match endpointFromBytes isKey ((payload.drop 32).take 32) with
    | none => .error .coordinator
    | some coordinator => .ok ⟨networkKey, coordinator, payload.drop 64⟩

def decodeInviteCode (code : List Char) : Except CodeError DecodedInvite :=
  if maxCodeLen < ((trim code).map Char.utf8Size).sum then .error .tooLong
  else
    match bs58Decode (trim code) with
    | .error error => .error (.base58 error)
    | .ok bytes =>
      match checkedPayload blake3 bytes with
      | .error error => .error error
      | .ok payload => payloadInvite isKey payload

end

/-! ## What is asked of it -/

section

variable (isKey : EndpointId → Bool) (blake3 : Bytes → BitVec 256) (code : List Char)

def RefusesCode : Prop :=
  ∃ error, decodeInviteCode isKey blake3 code = .error error

/-- Some cut of the code has the full length and, by accident, the right checksum. -/
def ChecksumCollides : Prop :=
  ∃ cut bytes, cut <+: code ∧ cut ≠ code ∧ bs58Decode cut = .ok bytes ∧
    bytes.length = payloadLen + checksumLen ∧
    bytes.drop payloadLen = inviteChecksum blake3 (bytes.take payloadLen)

/-- Without its last `k` digits the code's number, with the leading zeros of the code, has
the 80 bytes of an older code, and they start with two keys. -/
def LegacyCut (bytes : Bytes) (k : Nat) : Prop :=
  let zeros := (bytes.takeWhile (· == 0)).length
  let cut := beNat bytes / 58 ^ k
  256 ^ 79 ≤ 256 ^ zeros * cut ∧ 256 ^ zeros * cut < 256 ^ 80 ∧
    isKey (BitVec.ofNat 256 (cut / 256 ^ 48)) = true ∧
    isKey (BitVec.ofNat 256 (cut / 256 ^ 16)) = true

end

/-! ## Keys and payloads -/

variable {n k : Nat}

section

variable {isKey : EndpointId → Bool} {blake3 : Bytes → BitVec 256} (id : EndpointId)

theorem length_endpointBytes : (endpointBytes id).length = 32 :=
  beBytes_length 32 _

theorem endpointAt_bytes : endpointAt (endpointBytes id) = id := by
  rw [endpointAt, endpointBytes, beNat_beBytes, show 256 ^ 32 = 2 ^ 256 by decide,
    Nat.mod_eq_of_lt id.isLt, BitVec.ofNat_toNat, BitVec.setWidth_eq]

theorem length_inviteChecksum (payload : Bytes) :
    (inviteChecksum blake3 payload).length = checksumLen := by
  rfl

theorem payloadInvite_of_keys (network : isKey (endpointAt (payload.take 32)) = true)
    (coordinator : isKey (endpointAt ((payload.drop 32).take 32)) = true) :
    payloadInvite isKey payload = .ok ⟨endpointAt (payload.take 32),
      endpointAt ((payload.drop 32).take 32), payload.drop 64⟩ := by
  rw [payloadInvite, endpointFromBytes, if_pos network, endpointFromBytes, if_pos coordinator]

theorem keys_of_payloadInvite (ok : payloadInvite isKey payload = .ok decoded) :
    isKey (endpointAt (payload.take 32)) = true ∧
      isKey (endpointAt ((payload.drop 32).take 32)) = true := by
  rw [payloadInvite, endpointFromBytes, endpointFromBytes] at ok
  by_cases network : isKey (endpointAt (payload.take 32)) = true
  · by_cases coordinator : isKey (endpointAt ((payload.drop 32).take 32)) = true
    · exact ⟨network, coordinator⟩
    · rw [if_pos network, if_neg coordinator] at ok
      cases ok
  · rw [if_neg network] at ok
    cases ok

/-- The two keys of an 80-byte payload, by its number. -/
theorem endpointAt_payload (sized : payload.length = payloadLen) :
    endpointAt (payload.take 32) = BitVec.ofNat 256 (beNat payload / 256 ^ 48) ∧
      endpointAt ((payload.drop 32).take 32) = BitVec.ofNat 256 (beNat payload / 256 ^ 16) := by
  constructor
  · rw [endpointAt, beNat_take, sized]
    rfl
  · rw [endpointAt, beNat_take, beNat_drop, List.length_drop, sized]
    have split : (256 : Nat) ^ (payloadLen - 32) = 256 ^ 16 * 256 ^ 32 := by decide
    have rest : payloadLen - 32 - 32 = 16 := rfl
    rw [rest, split, Nat.mod_mul_right_div_self]
    apply BitVec.eq_of_toNat_eq
    rw [BitVec.toNat_ofNat, BitVec.toNat_ofNat, show (256 : Nat) ^ 32 = 2 ^ 256 by decide,
      Nat.mod_mod]

/-! ## Texts of bytes -/

variable {z : Nat}

/-- A text of bytes that is not too long decodes as its bytes do. -/
theorem decodeInviteCode_padded (short : (paddedText z n).length ≤ maxCodeLen) :
    decodeInviteCode isKey blake3 (paddedText z n) =
      match checkedPayload blake3 (paddedBytes z n) with
      | .error error => .error error
      | .ok payload => payloadInvite isKey payload := by
  have sizes : ((paddedText z n).map Char.utf8Size).sum = (paddedText z n).length :=
    utf8Len_eq_length fun c member => (plain_of_mem_paddedText member).2
  rw [decodeInviteCode, trim_eq_self fun c member => (plain_of_mem_paddedText member).1, sizes,
    if_neg (Nat.not_lt.mpr short), bs58Decode_padded]

/-- Bytes are taken as an invite if they have the length of an older code, or the full length
with the right checksum, and start with two keys. -/
theorem accepted_iff (short : (paddedText z n).length ≤ maxCodeLen) :
    ¬RefusesCode isKey blake3 (paddedText z n) ↔
      ((paddedBytes z n).length = payloadLen ∧
        isKey (BitVec.ofNat 256 (n / 256 ^ 48)) = true ∧
        isKey (BitVec.ofNat 256 (n / 256 ^ 16)) = true) ∨
      (paddedBytes z n).length = payloadLen + checksumLen ∧
        (paddedBytes z n).drop payloadLen =
          inviteChecksum blake3 ((paddedBytes z n).take payloadLen) ∧
        ∃ decoded, payloadInvite isKey ((paddedBytes z n).take payloadLen) = .ok decoded := by
  have taken : ∀ payload, (∃ decoded, payloadInvite isKey payload = .ok decoded) ↔
      ¬∃ error, payloadInvite isKey payload = .error error := by
    intro payload
    cases payloadInvite isKey payload with
    | ok decoded => exact ⟨fun _ ⟨_, error⟩ => (nomatch error), fun _ => ⟨decoded, rfl⟩⟩
    | error error => exact ⟨fun ⟨_, ok⟩ => (nomatch ok), fun none => absurd ⟨error, rfl⟩ none⟩
  rw [RefusesCode, decodeInviteCode_padded short, checkedPayload]
  by_cases older : (paddedBytes z n).length = payloadLen
  · obtain ⟨network, coordinator⟩ := endpointAt_payload older
    rw [beNat_paddedBytes] at network coordinator
    rw [if_pos older, ← network, ← coordinator, ← taken]
    constructor
    · rintro ⟨decoded, ok⟩
      exact .inl ⟨older, keys_of_payloadInvite ok⟩
    · rintro (⟨_, network, coordinator⟩ | ⟨full, _⟩)
      · exact ⟨_, payloadInvite_of_keys network coordinator⟩
      · cases older.symm.trans full
  · rw [if_neg older]
    by_cases full : (paddedBytes z n).length = payloadLen + checksumLen
    · rw [if_pos full]
      by_cases right : (paddedBytes z n).drop payloadLen =
          inviteChecksum blake3 ((paddedBytes z n).take payloadLen)
      · rw [if_neg (not_not.mpr right), ← taken]
        exact ⟨fun ok => .inr ⟨full, right, ok⟩,
          fun ok => ok.elim (fun ok => absurd ok.1 older) fun ok => ok.2.2⟩
      · rw [if_pos right]
        refine iff_of_false (fun taken => taken ⟨_, rfl⟩) ?_
        rintro (⟨older', _⟩ | ⟨_, right', _⟩)
        · exact older older'
        · exact right right'
    · rw [if_neg full]
      refine iff_of_false (fun taken => taken ⟨_, rfl⟩) ?_
      rintro (⟨older', _⟩ | ⟨full', _⟩)
      · exact older older'
      · exact full full'

/-! ## Cutting -/

/-- A code of 84 bytes is short enough. -/
theorem length_paddedText_le (sized : (paddedBytes z n).length = 84) :
    (paddedText z n).length ≤ maxCodeLen := by
  have within : z ≤ 84 := by
    rw [length_paddedBytes] at sized
    exact Nat.le_of_add_right_le sized.le
  have small : 256 ^ z * n < 256 ^ 84 := by
    rcases Nat.eq_zero_or_pos n with rfl | positive
    · rw [Nat.mul_zero]
      decide
    · exact ((length_paddedBytes_iff positive).mp sized).2
  have digits : n < 58 ^ (118 - z) := by
    apply Nat.lt_of_mul_lt_mul_left (a := 58 ^ z)
    calc 58 ^ z * n ≤ 256 ^ z * n := Nat.mul_le_mul_right n (Nat.pow_le_pow_left (by decide) z)
      _ < 256 ^ 84 := small
      _ < 58 ^ 118 := by decide
      _ = 58 ^ z * 58 ^ (118 - z) := by
        rw [← Nat.pow_add, Nat.add_sub_cancel' (within.trans (by decide))]
  have count := (Nat.digits_length_le_iff (by decide) n).mpr digits
  rw [length_paddedText, maxCodeLen]
  omega

/-- From 84 bytes to 80: five or six characters. -/
theorem cut_five_or_six (least : 256 ^ 83 ≤ 256 ^ z * n) (most : 256 ^ z * n < 256 ^ 84)
    (least' : 256 ^ 79 ≤ 256 ^ z * (n / 58 ^ k)) (most' : 256 ^ z * (n / 58 ^ k) < 256 ^ 80) :
    k = 5 ∨ k = 6 := by
  have upper : k < 7 := by
    have bound : 58 ^ k * 256 ^ 79 < 256 ^ 5 * 256 ^ 79 := by
      calc 58 ^ k * 256 ^ 79 ≤ 58 ^ k * (256 ^ z * (n / 58 ^ k)) := Nat.mul_le_mul_left _ least'
        _ = 256 ^ z * (58 ^ k * (n / 58 ^ k)) := Nat.mul_left_comm _ _ _
        _ ≤ 256 ^ z * n := Nat.mul_le_mul_left _ (Nat.mul_div_le n _)
        _ < 256 ^ 84 := most
    have small : 58 ^ k < 58 ^ 7 := (Nat.lt_of_mul_lt_mul_right bound).trans (by decide)
    exact (Nat.pow_lt_pow_iff_right (by decide)).mp small
  have lower : 4 < k := by
    have filled : 0 < n / 58 ^ k := by
      by_contra zero
      rw [Nat.eq_zero_of_not_pos zero, Nat.mul_zero] at least'
      exact absurd least' (by decide)
    have within : z < 80 := by
      have smaller : 256 ^ z < 256 ^ 80 := (Nat.le_mul_of_pos_right _ filled).trans_lt most'
      exact (Nat.pow_lt_pow_iff_right (by decide)).mp smaller
    have whole : (256 : Nat) ^ 80 = 256 ^ z * 256 ^ (80 - z) := by
      rw [← Nat.pow_add, Nat.add_sub_cancel' within.le]
    have cut : n < 256 ^ (80 - z) * 58 ^ k := by
      rw [whole] at most'
      exact (Nat.div_lt_iff_lt_mul (Nat.pow_pos (by decide))).mp (Nat.lt_of_mul_lt_mul_left most')
    have bound : 256 ^ 3 * 256 ^ 80 < 58 ^ k * 256 ^ 80 := by
      calc 256 ^ 3 * 256 ^ 80 = 256 ^ 83 := by decide
        _ ≤ 256 ^ z * n := least
        _ < 256 ^ z * (256 ^ (80 - z) * 58 ^ k) :=
          Nat.mul_lt_mul_of_pos_left cut (Nat.pow_pos (by decide))
        _ = 58 ^ k * 256 ^ 80 := by rw [← Nat.mul_assoc, ← whole, Nat.mul_comm]
    have large : 58 ^ 4 < 58 ^ k := (by decide : 58 ^ 4 < 256 ^ 3).trans
      (Nat.lt_of_mul_lt_mul_right bound)
    exact (Nat.pow_lt_pow_iff_right (by decide)).mp large
  omega

/-- A proper cut of a text of bytes ends within its leading zeros or drops some digits. -/
theorem cut_cases (front : cut <+: paddedText z n) (proper : cut ≠ paddedText z n) :
    (∃ j ≤ z, j < (paddedText z n).length ∧ cut = paddedText j 0) ∨
      ∃ k, 0 < k ∧ 58 ^ k ≤ n ∧ cut = paddedText z (n / 58 ^ k) := by
  have taken := List.prefix_iff_eq_take.mp front
  have shorter : cut.length < (paddedText z n).length := by
    refine Nat.lt_of_le_of_ne front.length_le fun same => proper ?_
    rw [taken, same, List.take_length]
  generalize cut.length = j at taken shorter
  subst taken
  rcases Nat.lt_or_ge z j with beyond | within
  · refine .inr ⟨(paddedText z n).length - j, Nat.sub_pos_of_lt shorter, ?_, ?_⟩
    · rw [length_paddedText] at shorter ⊢
      rw [← Nat.lt_digits_length_iff (by decide)]
      omega
    · refine take_paddedText_of_digits ?_ beyond.le
      rw [length_paddedText] at shorter ⊢
      omega
  · exact .inl ⟨j, within, shorter, take_paddedText_of_le within⟩

/-- Dropping digits of a number that is large enough is a proper cut. -/
theorem cut_digits (some : 0 < k) (large : 58 ^ k ≤ n) :
    paddedText z (n / 58 ^ k) <+: paddedText z n ∧ paddedText z (n / 58 ^ k) ≠ paddedText z n := by
  have digits : k < (Nat.digits 58 n).length := (Nat.lt_digits_length_iff (by decide) n).mpr large
  have cut := take_paddedText_of_digits (z := z) (n := n) (k := k)
    (j := z + ((Nat.digits 58 n).length - k)) (by omega) (Nat.le_add_right z _)
  rw [← cut]
  refine ⟨List.take_prefix _ _, fun whole => ?_⟩
  have lengths := congrArg List.length whole
  rw [List.length_take, length_paddedText] at lengths
  omega

section

variable (blake3) (sized : (paddedBytes z n).length = 84)

include sized

/-- The first 80 characters of a code whose payload is all zeros. -/
theorem zeros_accepted (small : n < 256 ^ 4) (zeroKey : isKey 0 = true) :
    ∃ cut, cut <+: paddedText z n ∧ cut ≠ paddedText z n ∧ ¬RefusesCode isKey blake3 cut := by
  have few := (Nat.digits_length_le_iff (by decide) n).mpr small
  rw [length_paddedBytes] at sized
  have enough : 80 ≤ z := by omega
  have same := take_paddedText_of_le (n := n) enough
  have eighty : (paddedText 80 0).length = 80 := by rw [length_paddedText]; rfl
  refine ⟨paddedText 80 0, ?_, ?_, ?_⟩
  · rw [← same]
    exact List.take_prefix _ _
  · intro whole
    have lengths := congrArg List.length whole
    rw [eighty, length_paddedText] at lengths
    have none : (Nat.digits 58 n).length = 0 := by omega
    rw [Nat.digits_eq_nil_iff_eq_zero.mp (List.length_eq_zero_iff.mp none)] at sized
    have all : z = 84 := sized
    omega
  · rw [accepted_iff (by rw [eighty]; decide)]
    refine .inl ⟨?_, ?_, ?_⟩
    · rfl
    · rwa [Nat.zero_div]
    · rwa [Nat.zero_div]

/-- A cut to an older code with two keys. -/
theorem legacyCut_accepted (some : 0 < k) (legacy : LegacyCut isKey (paddedBytes z n) k) :
    ∃ cut, cut <+: paddedText z n ∧ cut ≠ paddedText z n ∧ ¬RefusesCode isKey blake3 cut := by
  rw [LegacyCut, beNat_paddedBytes, takeWhile_paddedBytes] at legacy
  obtain ⟨least, most, network, coordinator⟩ := legacy
  have filled : 0 < n / 58 ^ k := by
    by_contra zero
    rw [Nat.eq_zero_of_not_pos zero, Nat.mul_zero] at least
    exact absurd least (by decide)
  have large : 58 ^ k ≤ n := (Nat.div_pos_iff.mp filled).2
  obtain ⟨front, proper⟩ := cut_digits (z := z) some large
  refine ⟨_, front, proper, ?_⟩
  rw [accepted_iff (front.length_le.trans (length_paddedText_le sized))]
  exact .inl ⟨(length_paddedBytes_iff filled).mpr ⟨least, most⟩, network, coordinator⟩

end

/-- Every cut that is taken is one of these. -/
theorem cut_refused (sized : (paddedBytes z n).length = 84) (large : 256 ^ 4 ≤ n)
    (apart : ¬ChecksumCollides blake3 (paddedText z n))
    (legacy : ∀ k ∈ [5, 6], ¬LegacyCut isKey (paddedBytes z n) k) (front : cut <+: paddedText z n)
    (proper : cut ≠ paddedText z n) :
    RefusesCode isKey blake3 cut := by
  have positive : 0 < n := (Nat.pow_pos (by decide)).trans_le large
  obtain ⟨least, most⟩ := (length_paddedBytes_iff positive).mp sized
  by_contra taken
  have short := front.length_le.trans (length_paddedText_le sized)
  have collides : ∀ {z' n' : Nat}, cut = paddedText z' n' →
      (paddedBytes z' n').length = payloadLen + checksumLen →
      (paddedBytes z' n').drop payloadLen =
        inviteChecksum blake3 ((paddedBytes z' n').take payloadLen) → False := by
    rintro z' n' rfl full right
    exact apart ⟨_, _, front, proper, bs58Decode_padded z' n', full, right⟩
  rcases cut_cases front proper with ⟨j, within, shorter, rfl⟩ | ⟨k, some, enough, rfl⟩
  · rcases (accepted_iff short).mp taken with ⟨older, _⟩ | ⟨full, right, _⟩
    · -- 80 leading zeros leave four bytes for the number
      rw [length_paddedBytes] at older
      rw [length_paddedBytes] at sized
      have digits := (Nat.lt_digits_length_iff (by decide) n).mpr large
      rw [show j = 80 from older] at within
      omega
    · exact collides rfl full right
  · rcases (accepted_iff short).mp taken with ⟨older, network, coordinator⟩ | ⟨full, right, _⟩
    · have filled : 0 < n / 58 ^ k := Nat.div_pos enough (Nat.pow_pos (by decide))
      obtain ⟨least', most'⟩ := (length_paddedBytes_iff filled).mp older
      have count := cut_five_or_six least most least' most'
      refine legacy k (by rcases count with rfl | rfl <;> decide) ?_
      rw [LegacyCut, beNat_paddedBytes, takeWhile_paddedBytes]
      exact ⟨least', most', network, coordinator⟩
    · exact collides rfl full right

/-- The bytes of a code with this payload. -/
def checked (blake3 : Bytes → BitVec 256) (payload : Bytes) : Bytes :=
  payload ++ inviteChecksum blake3 payload

section

variable {networkPubkey coordinator : EndpointId} {secret : Bytes}

theorem length_codePayload (networkPubkey coordinator : EndpointId)
    (sized : secret.length = secretLen) :
    (codePayload networkPubkey coordinator secret).length = payloadLen := by
  rw [codePayload, List.length_append, sized]
  rfl

theorem codePayload_parts (networkPubkey coordinator : EndpointId) (secret : Bytes) :
    (codePayload networkPubkey coordinator secret).take 32 = endpointBytes networkPubkey ∧
    ((codePayload networkPubkey coordinator secret).drop 32).take 32 = endpointBytes coordinator ∧
    (codePayload networkPubkey coordinator secret).drop 64 = secret := by
  have first := length_endpointBytes networkPubkey
  have second := length_endpointBytes coordinator
  rw [codePayload]
  refine ⟨?_, ?_, ?_⟩
  · rw [List.append_assoc, List.take_append_of_le_length first.ge, List.take_of_length_le first.le]
  · rw [List.append_assoc, List.drop_append_of_le_length first.ge, List.drop_of_length_le first.le,
      List.nil_append, List.take_append_of_le_length second.ge, List.take_of_length_le second.le]
  · exact List.drop_left' (by rw [List.length_append, first, second])

theorem checked_parts (blake3 : Bytes → BitVec 256) (sized : payload.length = payloadLen) :
    (checked blake3 payload).length = payloadLen + checksumLen ∧
    (checked blake3 payload).take payloadLen = payload ∧
    (checked blake3 payload).drop payloadLen = inviteChecksum blake3 payload := by
  refine ⟨?_, List.take_left' sized, List.drop_left' sized⟩
  rw [checked, List.length_append, sized, length_inviteChecksum]

theorem network_of_zeros (sized : secret.length = secretLen)
    (zero : beNat (codePayload networkPubkey coordinator secret) = 0) : networkPubkey = 0 := by
  have number := (endpointAt_payload (length_codePayload networkPubkey coordinator sized)).1
  rw [(codePayload_parts networkPubkey coordinator secret).1, endpointAt_bytes, zero] at number
  exact number

/-- Decoding gives back what was encoded. -/
theorem decode_encodeInviteCode (network : isKey networkPubkey = true)
    (coordinates : isKey coordinator = true) (sized : secret.length = secretLen) :
    decodeInviteCode isKey blake3 (encodeInviteCode blake3 networkPubkey coordinator secret) =
      .ok ⟨networkPubkey, coordinator, secret⟩ := by
  obtain ⟨length, payload, checksum⟩ :=
    checked_parts blake3 (length_codePayload networkPubkey coordinator sized)
  obtain ⟨first, second, third⟩ := codePayload_parts networkPubkey coordinator secret
  rw [encodeInviteCode, codeBytes, ← checked]
  obtain ⟨z, n, same⟩ := exists_paddedBytes (checked blake3 (codePayload ..))
  rw [same] at length payload checksum ⊢
  rw [bs58Encode_padded, decodeInviteCode_padded (length_paddedText_le length), checkedPayload,
    if_neg (by rw [length]; decide), if_pos length, payload, if_neg (not_not.mpr checksum)]
  dsimp only
  rw [payloadInvite_of_keys (by rwa [first, endpointAt_bytes])
    (by rwa [second, endpointAt_bytes]), first, second, third, endpointAt_bytes, endpointAt_bytes]

/-- A code decodes to what was encoded. Every cut of it is refused exactly if its payload is
not all zeros and it has no cut, by five or by six characters, to an older code whose first
64 bytes are two keys. -/
theorem invite_code_self_checking_iff (network : isKey networkPubkey = true)
    (coordinates : isKey coordinator = true) (sized : secret.length = secretLen)
    (apart : ¬ChecksumCollides blake3 (encodeInviteCode blake3 networkPubkey coordinator secret)) :
    decodeInviteCode isKey blake3 (encodeInviteCode blake3 networkPubkey coordinator secret) =
      .ok ⟨networkPubkey, coordinator, secret⟩ ∧
    ((∀ cut, cut <+: encodeInviteCode blake3 networkPubkey coordinator secret →
        cut ≠ encodeInviteCode blake3 networkPubkey coordinator secret →
        RefusesCode isKey blake3 cut) ↔
      0 < beNat (codePayload networkPubkey coordinator secret) ∧
        ∀ k ∈ [5, 6], ¬LegacyCut isKey (codeBytes blake3 networkPubkey coordinator secret) k) := by
  refine ⟨decode_encodeInviteCode network coordinates sized, ?_⟩
  obtain ⟨length, payload, _⟩ :=
    checked_parts blake3 (length_codePayload networkPubkey coordinator sized)
  have whole : beNat (codePayload networkPubkey coordinator secret) =
      beNat (checked blake3 (codePayload networkPubkey coordinator secret)) / 256 ^ 4 := by
    nth_rewrite 1 [← payload]
    rw [beNat_take, length, Nat.add_sub_cancel_left, checksumLen]
  have zeroKey : beNat (codePayload networkPubkey coordinator secret) = 0 → isKey 0 = true := by
    intro zero
    rw [← network_of_zeros sized zero]
    exact network
  rw [encodeInviteCode, codeBytes, ← checked] at apart ⊢
  rw [whole] at zeroKey ⊢
  obtain ⟨z, n, same⟩ := exists_paddedBytes (checked blake3 (codePayload ..))
  rw [same] at length apart zeroKey ⊢
  rw [bs58Encode_padded] at apart ⊢
  rw [beNat_paddedBytes] at zeroKey ⊢
  constructor
  · intro refused
    constructor
    · by_contra zero
      have zero := Nat.eq_zero_of_not_pos zero
      have small : n < 256 ^ 4 := (Nat.div_eq_zero_iff.mp zero).resolve_left (by decide)
      obtain ⟨cut, front, proper, taken⟩ := zeros_accepted blake3 length small (zeroKey zero)
      exact taken (refused cut front proper)
    · intro k member legacy
      have some : 0 < k := by
        rcases List.mem_pair.mp member with rfl | rfl <;> decide
      obtain ⟨cut, front, proper, taken⟩ := legacyCut_accepted blake3 length some legacy
      exact taken (refused cut front proper)
  · rintro ⟨filled, legacy⟩ cut front proper
    exact cut_refused length (Nat.div_pos_iff.mp filled).2 apart legacy front proper

end

/-- Within a first byte below 58, no cut keeps the full length. -/
theorem not_collides_of_small (sized : (paddedBytes z n).length = 84)
    (small : 256 ^ z * n < 58 * 256 ^ 83) : ¬ChecksumCollides blake3 (paddedText z n) := by
  rintro ⟨cut, bytes, front, proper, decoded, full, _⟩
  rcases cut_cases front proper with ⟨j, within, shorter, rfl⟩ | ⟨k, some, enough, rfl⟩
  · rw [bs58Decode_padded] at decoded
    obtain rfl := Except.ok.inj decoded
    rw [length_paddedBytes] at full
    have all : j = 84 := full
    rw [length_paddedBytes] at sized
    rw [length_paddedText] at shorter
    have none : (Nat.digits 256 n).length = 0 := by omega
    rw [Nat.digits_eq_nil_iff_eq_zero.mp (List.length_eq_zero_iff.mp none)] at shorter
    have less : j < z := shorter
    omega
  · rw [bs58Decode_padded] at decoded
    obtain rfl := Except.ok.inj decoded
    have filled : 0 < n / 58 ^ k := Nat.div_pos enough (Nat.pow_pos (by decide))
    have least := ((length_paddedBytes_iff filled).mp full).1
    have grown : 58 * 256 ^ 83 ≤ 256 ^ z * n := by
      calc 58 * 256 ^ 83 ≤ 58 ^ k * (256 ^ z * (n / 58 ^ k)) :=
            Nat.mul_le_mul (Nat.le_self_pow some.ne' 58) least
        _ = 256 ^ z * (58 ^ k * (n / 58 ^ k)) := Nat.mul_left_comm _ _ _
        _ ≤ 256 ^ z * n := Nat.mul_le_mul_left _ (Nat.mul_div_le n _)
    exact absurd small (Nat.not_lt.mpr grown)

end

/-! ## Keys of the Edwards curve -/

def fieldPrime : Nat := 2 ^ 255 - 19

def edwardsD : Nat :=
  37095705934669439343138083508754565189542113879843219016388785533085940283555

/-- A power modulo the field's prime, of an exponent of at most `bits` bits. -/
def fieldPow (x : Nat) : Nat → Nat → Nat
  | 0, _ => 1
  | bits + 1, e =>
    let half := fieldPow x bits (e / 2)
    if e % 2 = 1 then half * half % fieldPrime * x % fieldPrime else half * half % fieldPrime

/-- Whether the bytes, little-endian and without the sign bit, are the `y` of a point: whether
`(y² - 1) / (d y² + 1)` is a square. -/
def isEdwardsPoint (id : EndpointId) : Bool :=
  let y := beNat (endpointBytes id).reverse % 2 ^ 255
  let product := (y * y + fieldPrime - 1) * (edwardsD * (y * y) + 1) % fieldPrime
  product == 0 || fieldPow product 255 ((fieldPrime - 1) / 2) == 1

/-- The key whose bytes are all the same. -/
def repeatedKey (byte : UInt8) : EndpointId := endpointAt (List.replicate 32 byte)

def repeatedSecret : Bytes := List.replicate 16 3

/-- The checksum moves the number of a code by less than `256 ^ 4`. -/
theorem beNat_checked (blake3 : Bytes → BitVec 256) (payload : Bytes) :
    beNat payload * 256 ^ 4 ≤ beNat (checked blake3 payload) ∧
      beNat (checked blake3 payload) < (beNat payload + 1) * 256 ^ 4 := by
  have small := beNat_lt (inviteChecksum blake3 payload)
  rw [checked, beNat_append, Nat.succ_mul]
  exact ⟨Nat.le_add_right _ _, Nat.add_lt_add_left small _⟩

section

variable {isKey : EndpointId → Bool} {payload : Bytes} (blake3 : Bytes → BitVec 256)

section

variable (sized : payload.length = payloadLen) (least : 256 ^ 79 ≤ beNat payload)

include sized least

/-- A code of a key that does not start with a zero byte has no leading zeros. -/
theorem checked_unpadded :
    checked blake3 payload = paddedBytes 0 (beNat (checked blake3 payload)) := by
  have length := (checked_parts blake3 sized).1
  have large := (beNat_checked blake3 payload).1
  obtain ⟨z, n, same⟩ := exists_paddedBytes (checked blake3 payload)
  rw [same] at length large ⊢
  rw [beNat_paddedBytes] at large ⊢
  have most : 256 ^ 83 ≤ n := by
    calc 256 ^ 83 = 256 ^ 79 * 256 ^ 4 := by decide
      _ ≤ _ := Nat.mul_le_mul_right _ least
      _ ≤ n := large
  have digits := (Nat.lt_digits_length_iff (by decide) n).mpr most
  rw [length_paddedBytes] at length
  have none : z = 0 := by
    have total : z + (Nat.digits 256 n).length = 84 := length
    omega
  rw [none]

theorem not_collides (most : beNat payload < 58 * 256 ^ 79) :
    ¬ChecksumCollides blake3 (bs58Encode (checked blake3 payload)) := by
  have unpadded := checked_unpadded blake3 sized least
  have small := (beNat_checked blake3 payload).2
  have length := (checked_parts blake3 sized).1
  generalize checked blake3 payload = bytes at unpadded small length ⊢
  rw [unpadded] at length ⊢
  rw [bs58Encode_padded]
  refine not_collides_of_small length ?_
  calc 256 ^ 0 * beNat bytes = beNat bytes := by rw [Nat.pow_zero, Nat.one_mul]
    _ < (beNat payload + 1) * 256 ^ 4 := small
    _ ≤ 58 * 256 ^ 79 * 256 ^ 4 := Nat.mul_le_mul_right _ most

end

/-- A cut code by the number of its first 64 bytes. -/
theorem legacyCut_of_bounds (lower : q * (58 ^ k * 256 ^ 16) ≤ n)
    (upper : n < (q + 1) * (58 ^ k * 256 ^ 16)) (least : 256 ^ 63 ≤ q) (most : q < 256 ^ 64)
    (network : isKey (BitVec.ofNat 256 (q / 256 ^ 32)) = true)
    (coordinates : isKey (BitVec.ofNat 256 q) = true) : LegacyCut isKey (paddedBytes 0 n) k := by
  have rest : n / 58 ^ k / 256 ^ 16 = q := by
    rw [Nat.div_div_eq_div_mul]
    exact Nat.div_eq_of_lt_le lower upper
  rw [LegacyCut, beNat_paddedBytes, takeWhile_paddedBytes, Nat.pow_zero, Nat.one_mul]
  refine ⟨?_, ?_, ?_, ?_⟩
  · calc 256 ^ 79 = 256 ^ 63 * 256 ^ 16 := by decide
      _ ≤ q * 256 ^ 16 := Nat.mul_le_mul_right _ least
      _ ≤ n / 58 ^ k := by
        rw [← rest]
        exact Nat.div_mul_le_self _ _
  · have small : n / 58 ^ k < 256 ^ 64 * 256 ^ 16 :=
      (Nat.div_lt_iff_lt_mul (Nat.pow_pos (by decide))).mp (by rwa [rest])
    exact small.trans_eq (by decide)
  · rwa [show (256 : Nat) ^ 48 = 256 ^ 16 * 256 ^ 32 by decide, ← Nat.div_div_eq_div_mul, rest]
  · rwa [rest]

end

/-- Every cut of this code is refused. -/
theorem invite_code_self_checking_plain :
    let blake3 : Bytes → BitVec 256 := fun _ => 0
    let code := encodeInviteCode blake3 (repeatedKey 1) (repeatedKey 1) repeatedSecret
    decodeInviteCode isEdwardsPoint blake3 code =
        .ok ⟨repeatedKey 1, repeatedKey 1, repeatedSecret⟩ ∧
      ∀ cut, cut <+: code → cut ≠ code → RefusesCode isEdwardsPoint blake3 cut := by
  intro blake3 code
  have valid : isEdwardsPoint (repeatedKey 1) = true := by decide +kernel
  have apart : ¬ChecksumCollides blake3 code :=
    not_collides blake3 (length_codePayload _ _ rfl) (by decide +kernel) (by decide +kernel)
  obtain ⟨decodes, iff⟩ := invite_code_self_checking_iff valid valid rfl apart
  refine ⟨decodes, iff.mpr ⟨by decide +kernel, ?_⟩⟩
  intro k member
  rcases List.mem_pair.mp member with rfl | rfl
  · unfold LegacyCut
    decide +kernel
  · unfold LegacyCut
    decide +kernel

/-- Whatever the hash, this code is taken without its last five characters: as a code for
another network and another coordinator. -/
theorem cut_code_accepted (blake3 : Bytes → BitVec 256) :
    let code := encodeInviteCode blake3 (repeatedKey 1) (repeatedKey 6) repeatedSecret
    isEdwardsPoint (repeatedKey 1) = true ∧ isEdwardsPoint (repeatedKey 6) = true ∧
      ¬ChecksumCollides blake3 code ∧
      ∃ cut, cut <+: code ∧ cut ≠ code ∧ ¬RefusesCode isEdwardsPoint blake3 cut := by
  have least : 256 ^ 79 ≤ beNat (codePayload (repeatedKey 1) (repeatedKey 6) repeatedSecret) := by
    decide +kernel
  refine ⟨by decide +kernel, by decide +kernel,
    not_collides blake3 (length_codePayload _ _ rfl) least (by decide +kernel), ?_⟩
  have sized : (codePayload (repeatedKey 1) (repeatedKey 6) repeatedSecret).length = payloadLen :=
    length_codePayload _ _ rfl
  have unpadded := checked_unpadded blake3 sized least
  obtain ⟨lower, upper⟩ := beNat_checked blake3 (codePayload ..)
  have length := (checked_parts blake3 sized).1
  rw [encodeInviteCode, codeBytes, ← checked]
  rw [unpadded] at length ⊢
  rw [bs58Encode_padded]
  refine legacyCut_accepted blake3 length (by decide : 0 < 5) (legacyCut_of_bounds
    (q := beNat (codePayload (repeatedKey 1) (repeatedKey 6) repeatedSecret) * 256 ^ 4 /
      (58 ^ 5 * 256 ^ 16))
    (le_trans (by decide +kernel) lower) (upper.trans_le (by decide +kernel)) ?_ ?_ ?_ ?_)
  all_goals decide +kernel

theorem cut_plain_code_accepted :
    let code := encodeInviteCode (fun _ => 0) (repeatedKey 1) (repeatedKey 6) repeatedSecret
    ¬ChecksumCollides (fun _ => 0) code ∧
      ∃ cut, cut <+: code ∧ cut ≠ code ∧ ¬RefusesCode isEdwardsPoint (fun _ => 0) cut :=
  (cut_code_accepted fun _ => 0).2.2

end Rayfish
