import Mathlib.Data.List.Basic
import Mathlib.Tactic.Ring

/-!
# Byte strings and big-endian integers

Byte strings are lists of `UInt8`. `byte p i` is an index the program has
already checked; `p[i]?` is a checked one.
-/

namespace Lib

abbrev Bytes := List UInt8

/-- `p[i]` where the length has been checked before. -/
def byte (p : Bytes) (i : Nat) : UInt8 := p.getD i 0

/-- The number a big-endian byte string spells. -/
def beNat : Bytes → Nat
  | [] => 0
  | b :: rest => b.toNat * 256 ^ rest.length + beNat rest

/-- The low `k` bytes of a number, most significant first. -/
def beBytes : Nat → Nat → Bytes
  | 0, _ => []
  | k + 1, n => UInt8.ofNat (n / 256 ^ k) :: beBytes k n

def be16 (a b : UInt8) : UInt16 := UInt16.ofNat (beNat [a, b])

def be32 (a b c d : UInt8) : UInt32 := UInt32.ofNat (beNat [a, b, c, d])

/-- `p[off..off + bs.len()].copy_from_slice(bs)` where the length has been checked before. -/
def splice (p : Bytes) (off : Nat) (bs : Bytes) : Bytes :=
  p.take off ++ bs ++ p.drop (off + bs.length)

/-- `u16::from_be_bytes([p[off], p[off + 1]])`. -/
def word (p : Bytes) (off : Nat) : UInt16 := be16 (byte p off) (byte p (off + 1))

/-- `p[off..off + 2].copy_from_slice(&x.to_be_bytes())`. -/
def setWord (p : Bytes) (off : Nat) (x : UInt16) : Bytes := splice p off (beBytes 2 x.toNat)

variable {p : Bytes} {i : Nat}

theorem byte_eq_of_getElem? (h : q[j]? = p[i]?) : byte q j = byte p i := by
  simp only [byte, List.getD_eq_getElem?_getD, h]

theorem byte_of_getElem? (h : p[i]? = some b) : byte p i = b := by
  simp only [byte, List.getD_eq_getElem?_getD, h, Option.getD_some]

theorem getElem?_byte (h : i < p.length) : p[i]? = some (byte p i) := by
  simp [byte, h]

@[simp] theorem beBytes_length (k n : Nat) : (beBytes k n).length = k := by
  induction k with
  | zero => rfl
  | succ k ih => simp [beBytes, ih]

theorem beNat_beBytes (k n : Nat) : beNat (beBytes k n) = n % 256 ^ k := by
  induction k with
  | zero => simp [beBytes, beNat, Nat.mod_one]
  | succ k ih =>
    rw [beBytes, beNat, ih, beBytes_length, Nat.mod_pow_succ (b := 256) (k := k),
      UInt8.toNat_ofNat']
    ring

theorem beNat_append (p q : Bytes) : beNat (p ++ q) = beNat p * 256 ^ q.length + beNat q := by
  induction p with
  | nil => rw [List.nil_append, beNat, Nat.zero_mul, Nat.zero_add]
  | cons b p ih =>
    rw [List.cons_append, beNat, ih, beNat, List.length_append]
    ring

theorem beNat_lt (p : Bytes) : beNat p < 256 ^ p.length := by
  induction p with
  | nil => exact Nat.one_pos
  | cons b p ih =>
    calc beNat (b :: p) < b.toNat * 256 ^ p.length + 256 ^ p.length := Nat.add_lt_add_left ih _
      _ = (b.toNat + 1) * 256 ^ p.length := (Nat.succ_mul _ _).symm
      _ ≤ 256 * 256 ^ p.length := Nat.mul_le_mul_right _ (UInt8.toNat_lt b)
      _ = 256 ^ (b :: p).length := (Nat.pow_succ' ..).symm

theorem beNat_split :
    beNat p = 256 ^ (p.length - i) * beNat (p.take i) + beNat (p.drop i) ∧
      beNat (p.drop i) < 256 ^ (p.length - i) := by
  rw [← List.length_drop, Nat.mul_comm, ← beNat_append, List.take_append_drop]
  exact ⟨rfl, beNat_lt _⟩

theorem beNat_take : beNat (p.take i) = beNat p / 256 ^ (p.length - i) := by
  obtain ⟨whole, small⟩ := beNat_split (p := p) (i := i)
  rw [whole, Nat.mul_add_div (Nat.pow_pos (by decide)), Nat.div_eq_of_lt small, Nat.add_zero]

theorem beNat_drop : beNat (p.drop i) = beNat p % 256 ^ (p.length - i) := by
  obtain ⟨whole, small⟩ := beNat_split (p := p) (i := i)
  rw [whole, Nat.mul_add_mod, Nat.mod_eq_of_lt small]

theorem take_drop_beBytes (front rest : Bytes) (k n : Nat) :
    ((front ++ beBytes k n ++ rest).drop front.length).take k = beBytes k n := by
  rw [List.append_assoc, List.drop_left, List.take_append_of_le_length (by simp),
    List.take_of_length_le (by simp)]

/-- A two-byte field reads back as the number written, modulo its width. -/
theorem be16_beBytes (front rest : Bytes) (n : Nat) :
    be16 (byte (front ++ beBytes 2 n ++ rest) front.length)
      (byte (front ++ beBytes 2 n ++ rest) (front.length + 1)) = UInt16.ofNat n := by
  have field : beBytes 2 n = [UInt8.ofNat (n / 256 ^ 1), UInt8.ofNat (n / 256 ^ 0)] := rfl
  have first : byte (front ++ beBytes 2 n ++ rest) front.length = UInt8.ofNat (n / 256 ^ 1) :=
    byte_of_getElem? (by rw [field]; simp)
  have second : byte (front ++ beBytes 2 n ++ rest) (front.length + 1) =
      UInt8.ofNat (n / 256 ^ 0) := byte_of_getElem? (by rw [field]; simp)
  rw [first, second, be16, ← field, beNat_beBytes]
  apply UInt16.toNat_inj.mp
  simp

theorem toNat_be16 (a b : UInt8) : (be16 a b).toNat = a.toNat * 256 + b.toNat := by
  have := a.toNat_lt
  have := b.toNat_lt
  simp only [be16, beNat, List.length_cons, List.length_nil, UInt16.toNat_ofNat']
  omega

theorem slice_two (inside : off + 2 ≤ p.length) :
    (p.drop off).take 2 = [byte p off, byte p (off + 1)] := by
  have first := getElem?_byte (p := p) (i := off) (by omega)
  have second := getElem?_byte (p := p) (i := off + 1) (by omega)
  apply List.ext_getElem?
  intro i
  match i with
  | 0 => simpa using first
  | 1 => simpa using second
  | i + 2 => simp

/-! ## Overwriting -/

section Splice

variable {p bs : Bytes} {off i : Nat}

variable (inside : off + bs.length ≤ p.length)

include inside

theorem length_splice : (splice p off bs).length = p.length := by
  rw [splice, List.length_append, List.length_append, List.length_take, List.length_drop]
  omega

theorem getElem?_splice :
    (splice p off bs)[i]? =
      if off ≤ i ∧ i < off + bs.length then bs[i - off]? else p[i]? := by
  have front : (p.take off).length = off := List.length_take_of_le (by omega)
  rw [splice, List.append_assoc]
  by_cases before : i < off
  · rw [List.getElem?_append_left (by omega), List.getElem?_take_of_lt before, if_neg (by omega)]
  · rw [List.getElem?_append_right (by omega), front]
    by_cases within : i < off + bs.length
    · rw [List.getElem?_append_left (by omega), if_pos (by omega)]
    · rw [List.getElem?_append_right (by omega), List.getElem?_drop, if_neg (by omega)]
      congr 1
      omega

/-- Bytes outside the slice stay. -/
theorem getElem?_splice_of_ne (outside : i < off ∨ off + bs.length ≤ i) :
    (splice p off bs)[i]? = p[i]? := by
  rw [getElem?_splice inside, if_neg (by omega)]

theorem splice_getElem? (within : i < bs.length) : (splice p off bs)[off + i]? = bs[i]? := by
  rw [getElem?_splice inside, if_pos ⟨Nat.le_add_right off i, Nat.add_lt_add_left within off⟩,
    Nat.add_sub_cancel_left]

theorem slice_splice : ((splice p off bs).drop off).take bs.length = bs := by
  apply List.ext_getElem?
  intro i
  rw [List.getElem?_take]
  split
  · next within => rw [List.getElem?_drop, splice_getElem? inside within]
  · next beyond => rw [List.getElem?_eq_none (Nat.not_lt.mp beyond)]

end Splice

section Words

variable {p q : Bytes} {off off' i : Nat} {x : UInt16}

theorem word_eq_of_getElem? (first : q[off]? = p[off]?) (second : q[off + 1]? = p[off + 1]?) :
    word q off = word p off := by
  rw [word, word, byte_eq_of_getElem? first, byte_eq_of_getElem? second]

section

variable (inside : off + 2 ≤ p.length)

include inside

theorem length_setWord : (setWord p off x).length = p.length :=
  length_splice (by rwa [beBytes_length])

theorem getElem?_setWord_of_ne (outside : i < off ∨ off + 2 ≤ i) : (setWord p off x)[i]? = p[i]? :=
  getElem?_splice_of_ne (by rwa [beBytes_length]) (by rwa [beBytes_length])

theorem word_setWord : word (setWord p off x) off = x := by
  have front : (p.take off).length = off := List.length_take_of_le (by omega)
  have written := be16_beBytes (p.take off) (p.drop (off + 2)) x.toNat
  rw [front, UInt16.ofNat_toNat] at written
  exact written

theorem word_setWord_of_ne
    (apart : off' + 2 ≤ off ∨ off + 2 ≤ off') : word (setWord p off x) off' = word p off' :=
  word_eq_of_getElem? (getElem?_setWord_of_ne inside (by omega))
    (getElem?_setWord_of_ne inside (by omega))

end

theorem word_drop (p : Bytes) (off i : Nat) : word (p.drop off) i = word p (off + i) := by
  have at' : ∀ j, byte (p.drop off) j = byte p (off + j) := fun j =>
    byte_eq_of_getElem? List.getElem?_drop
  rw [word, word, at', at', Nat.add_assoc]

theorem word_take (kept : off + 2 ≤ n) : word (p.take n) off = word p off :=
  word_eq_of_getElem? (List.getElem?_take_of_lt (by omega)) (List.getElem?_take_of_lt (by omega))

theorem word_append (kept : off + 2 ≤ p.length) : word (p ++ rest) off = word p off :=
  word_eq_of_getElem? (List.getElem?_append_left (by omega))
    (List.getElem?_append_left (by omega))

theorem drop_setWord (inside : off + i + 2 ≤ p.length) :
    (setWord p (off + i) x).drop off = setWord (p.drop off) i x := by
  have front : off ≤ (p.take (off + i)).length := by
    rw [List.length_take]
    omega
  rw [setWord, setWord, splice, splice, List.append_assoc, List.drop_append_of_le_length front,
    List.drop_take, Nat.add_sub_cancel_left, List.drop_drop, List.append_assoc, Nat.add_assoc]

theorem take_setWord (kept : off + 2 ≤ n) (inside : n ≤ p.length) :
    (setWord p off x).take n = setWord (p.take n) off x := by
  have length : (p.take n).length = n := List.length_take_of_le inside
  apply List.ext_getElem?
  intro i
  rw [setWord, setWord, getElem?_splice (by rw [beBytes_length]; omega), List.getElem?_take,
    getElem?_splice (by rw [beBytes_length]; omega), List.getElem?_take, beBytes_length]
  split_ifs <;> first | rfl | omega

end Words

end Lib
