import Rayfish.Lib.BigEndian
import Rayfish.Lib.Radix
import Rayfish.Lib.Text

/-!
# Base58

Byte strings written with 58 letters and digits: one character for each leading zero byte,
then the digits of the number the bytes stand for. A text cut off at the end decodes to
the number divided by a power of 58 (`take_paddedText_of_digits`).
-/

namespace Lib

def base58Alphabet : List Char :=
  "123456789ABCDEFGHJKLMNPQRSTUVWXYZabcdefghijkmnopqrstuvwxyz".toList

def base58Char (d : Nat) : Char := base58Alphabet.getD d '1'

def base58Digit (c : Char) : Option Nat := base58Alphabet.findIdx? (· == c)

inductive Base58Error where
  | nonAsciiCharacter (index : Nat)
  | invalidCharacter (character : Char) (index : Nat)

/-- The digits of a text that starts at position `index`. -/
def base58Digits : Nat → List Char → Except Base58Error (List Nat)
  | _, [] => .ok []
  | index, c :: rest =>
    if 127 < c.toNat then .error (.nonAsciiCharacter index)
    else
      match base58Digit c with
      | none => .error (.invalidCharacter c index)
      | some d => (base58Digits (index + 1) rest).map (d :: ·)

def bs58Encode (bytes : Bytes) : List Char :=
  (convert 256 58 (bytes.map UInt8.toNat)).map base58Char

def bs58Decode (text : List Char) : Except Base58Error Bytes :=
  (base58Digits 0 text).map fun digits => (convert 58 256 digits).map UInt8.ofNat

/-- `z` zero bytes and the bytes of `n`. -/
def paddedBytes (z n : Nat) : Bytes := (padded z 256 n).map UInt8.ofNat

/-- The text of `z` zero bytes and the bytes of `n`. -/
def paddedText (z n : Nat) : List Char := (padded z 58 n).map base58Char

theorem base58Digit_char : ∀ d < 58, base58Digit (base58Char d) = some d := by decide

theorem base58Char_ascii : ∀ d < 58, (base58Char d).toNat ≤ 127 := by decide

variable {z n k : Nat} {byte : UInt8} {rest : Bytes}

theorem lt_of_mem_padded (base : 1 < b) (member : d ∈ padded z b n) : d < b := by
  rw [padded, List.mem_append, List.mem_reverse] at member
  rcases member with zero | digit
  · rw [List.eq_of_mem_replicate zero]
    exact Nat.zero_lt_of_lt base
  · exact Nat.digits_lt_base base digit

theorem base58Digits_map (small : ∀ d ∈ digits, d < 58) (index : Nat) :
    base58Digits index (digits.map base58Char) = .ok digits := by
  induction digits generalizing index with
  | nil => rfl
  | cons d digits ih =>
    have here : d < 58 := small d List.mem_cons_self
    rw [List.map_cons, base58Digits, if_neg (Nat.not_lt.mpr (base58Char_ascii d here)),
      base58Digit_char d here]
    rw [ih fun d member => small d (List.mem_cons_of_mem _ member)]
    rfl

/-- Every byte string is some zeros and the bytes of its number. -/
theorem exists_paddedBytes (bytes : Bytes) : ∃ z n, bytes = paddedBytes z n := by
  have small : ∀ x ∈ bytes.map UInt8.toNat, x < 256 := by
    intro x member
    obtain ⟨byte, _, rfl⟩ := List.mem_map.mp member
    exact UInt8.toNat_lt byte
  obtain ⟨z, n, same⟩ := exists_padded (by decide : 1 < 256) small
  refine ⟨z, n, ?_⟩
  rw [paddedBytes, ← same, List.map_map]
  exact (List.map_id'' (fun x => UInt8.ofNat_toNat) bytes).symm

section

variable (z n : Nat)

theorem toNat_paddedBytes : (paddedBytes z n).map UInt8.toNat = padded z 256 n := by
  rw [paddedBytes, List.map_map]
  refine (List.map_congr_left fun d member => ?_).trans (List.map_id _)
  exact UInt8.toNat_ofNat_of_lt' (lt_of_mem_padded (by decide) member)

theorem bs58Encode_padded : bs58Encode (paddedBytes z n) = paddedText z n := by
  rw [bs58Encode, toNat_paddedBytes, convert_padded (by decide) (by decide), paddedText]

theorem bs58Decode_padded : bs58Decode (paddedText z n) = .ok (paddedBytes z n) := by
  rw [bs58Decode, paddedText, base58Digits_map fun d => lt_of_mem_padded (by decide)]
  exact congrArg (fun digits => Except.ok (digits.map UInt8.ofNat))
    (convert_padded (by decide : 1 < 58) (by decide : 1 < 256) z n)

theorem length_paddedBytes : (paddedBytes z n).length = z + (Nat.digits 256 n).length := by
  rw [paddedBytes, List.length_map, length_padded]

theorem length_paddedText : (paddedText z n).length = z + (Nat.digits 58 n).length := by
  rw [paddedText, List.length_map, length_padded]

end

/-- The bytes are as many as those of the number with its leading zeros behind it. -/
theorem length_paddedBytes_iff (positive : 0 < n) :
    (paddedBytes z n).length = k + 1 ↔ 256 ^ k ≤ 256 ^ z * n ∧ 256 ^ z * n < 256 ^ (k + 1) := by
  rw [← length_digits_iff (by decide), Nat.digits_base_pow_mul (by decide) positive,
    List.length_append, List.length_replicate, length_paddedBytes]

theorem beNat_eq_foldl (bytes : Bytes) :
    beNat bytes = (bytes.map UInt8.toNat).foldl (fun n x => n * 256 + x) 0 := by
  rw [foldl_eq_ofDigits]
  induction bytes with
  | nil => rfl
  | cons byte bytes ih =>
    rw [beNat, ih, List.map_cons, List.reverse_cons, Nat.ofDigits_append, Nat.ofDigits_singleton,
      List.length_reverse, List.length_map]
    ring

theorem beNat_paddedBytes (z n : Nat) : beNat (paddedBytes z n) = n := by
  rw [beNat_eq_foldl, toNat_paddedBytes, foldl_padded]

theorem takeWhile_paddedBytes (z n : Nat) : ((paddedBytes z n).takeWhile (· == 0)).length = z := by
  have zeros : (fun byte : UInt8 => byte == 0) = (· == 0) ∘ UInt8.toNat := by
    funext byte
    exact decide_eq_decide.mpr UInt8.toNat_inj.symm
  rw [zeros, ← List.length_map UInt8.toNat, ← List.takeWhile_map, toNat_paddedBytes,
    takeWhile_padded, List.length_replicate]

/-- A text cut within its leading zeros. -/
theorem take_paddedText_of_le (within : j ≤ z) : (paddedText z n).take j = paddedText j 0 := by
  rw [paddedText, ← List.map_take, take_padded_of_le within, paddedText]

/-- A text with its last `k` digits cut off. -/
theorem take_paddedText_of_digits (cut : z + (Nat.digits 58 n).length = j + k) (beyond : z ≤ j) :
    (paddedText z n).take j = paddedText z (n / 58 ^ k) := by
  rw [paddedText, ← List.map_take, take_padded_of_digits (by decide) cut beyond, paddedText]

theorem base58Char_plain :
    ∀ d < 58, isWhitespace (base58Char d) = false ∧ (base58Char d).utf8Size = 1 := by
  decide +kernel

theorem plain_of_mem_paddedText (member : c ∈ paddedText z n) :
    isWhitespace c = false ∧ c.utf8Size = 1 := by
  obtain ⟨d, digit, rfl⟩ := List.mem_map.mp member
  exact base58Char_plain d (lt_of_mem_padded (by decide) digit)

/-! ## The text of a byte string -/

theorem bs58Decode_bs58Encode (bytes : Bytes) : bs58Decode (bs58Encode bytes) = .ok bytes := by
  obtain ⟨z, n, rfl⟩ := exists_paddedBytes bytes
  rw [bs58Encode_padded, bs58Decode_padded]

theorem plain_of_mem_bs58Encode (member : c ∈ bs58Encode bytes) :
    isWhitespace c = false ∧ c.utf8Size = 1 := by
  obtain ⟨z, n, rfl⟩ := exists_paddedBytes bytes
  rw [bs58Encode_padded] at member
  exact plain_of_mem_paddedText member

/-- Bytes that do not start with zero are the digits of a number, and their text is its digits
in base 58. -/
theorem digits_of_head_ne_zero (positive : byte ≠ 0) :
    ∃ n, (byte :: rest).length = (Nat.digits 256 n).length ∧
      (bs58Encode (byte :: rest)).length = (Nat.digits 58 n).length := by
  obtain ⟨z, n, same⟩ := exists_paddedBytes (byte :: rest)
  have zeros := takeWhile_paddedBytes z n
  rw [← same, List.takeWhile_cons_of_neg (by simpa using positive)] at zeros
  obtain rfl : 0 = z := zeros
  refine ⟨n, ?_, ?_⟩
  · rw [same, length_paddedBytes, Nat.zero_add]
  · rw [same, bs58Encode_padded, length_paddedText, Nat.zero_add]

/-- Two bytes take at most three characters. -/
theorem length_bs58Encode_le (positive : byte ≠ 0) (short : (byte :: rest).length ≤ 2 * k) :
    (bs58Encode (byte :: rest)).length ≤ 3 * k := by
  obtain ⟨n, bytes, text⟩ := @digits_of_head_ne_zero byte rest positive
  rw [text, Nat.digits_length_le_iff (by decide)]
  rw [bytes, Nat.digits_length_le_iff (by decide)] at short
  calc n < 256 ^ (2 * k) := short
    _ = (256 ^ 2) ^ k := Nat.pow_mul ..
    _ ≤ (58 ^ 3) ^ k := Nat.pow_le_pow_left (by decide) k
    _ = 58 ^ (3 * k) := (Nat.pow_mul ..).symm

/-- Three bytes take more than four characters. -/
theorem lt_length_bs58Encode (positive : byte ≠ 0) (long : 3 * k < (byte :: rest).length) :
    4 * k < (bs58Encode (byte :: rest)).length := by
  obtain ⟨n, bytes, text⟩ := @digits_of_head_ne_zero byte rest positive
  rw [text, Nat.lt_digits_length_iff (by decide)]
  rw [bytes, Nat.lt_digits_length_iff (by decide)] at long
  calc 58 ^ (4 * k) ≤ 64 ^ (4 * k) := Nat.pow_le_pow_left (by decide) (4 * k)
    _ = (64 ^ 4) ^ k := Nat.pow_mul ..
    _ = (256 ^ 3) ^ k := by rw [show (64 : Nat) ^ 4 = 256 ^ 3 by decide]
    _ = 256 ^ (3 * k) := (Nat.pow_mul ..).symm
    _ ≤ n := long

end Lib
