import Mathlib.Data.Nat.ModEq
import Rayfish.Lib.Patch

/-!
# One's-complement checksums

The sum of the 16-bit words of a byte string, its carries folded in, and the complement of
that (RFC 1071). Folding is reduction modulo `2 ^ 16 - 1` that keeps zero apart from the
other multiples (`foldCarries_eq`), so a string checks out exactly when its sum is such a
multiple other than zero (`fold_eq_zero`). `fold_fill` says that writing the checksum into a
field left zero makes the string check out, and `wordSum_replace` that updating it for a
replaced word (RFC 1624) keeps the sum.
-/

namespace Lib

/-- The sum of the big-endian words. An odd last byte is padded with zero. -/
def wordSum : Bytes → Nat
  | [] => 0
  | [a] => a.toNat * 256
  | a :: b :: rest => (a.toNat * 256 + b.toNat) + wordSum rest

/-- The folding loop, with the iterations left as its first argument. -/
def foldLoop : Nat → Nat → Nat
  | 0, sum => sum
  | left + 1, sum =>
    if sum >>> 16 ≠ 0 then foldLoop left ((sum &&& 0xffff) + (sum >>> 16)) else sum

section

variable (sum : Nat)

/-- Each iteration makes the sum smaller, so the sum itself is enough. -/
def foldCarries : Nat := foldLoop sum sum

/-- The complement of a folded sum. -/
def fold : UInt16 := ~~~ UInt16.ofNat (foldCarries sum)

/-- The checksum after one word `old` of the data became `new`. -/
def replaceWord (check old new : UInt16) : UInt16 :=
  fold ((~~~check).toNat + (~~~old).toNat + new.toNat)

/-! ## Folding -/
theorem foldLoop_eq (left sum : Nat) (enough : sum ≤ left) :
    foldLoop left sum = if sum = 0 then 0 else (sum - 1) % 65535 + 1 := by
  induction left generalizing sum with
  | zero =>
    obtain rfl : sum = 0 := Nat.le_zero.1 enough
    rfl
  | succ left ih =>
    have low : sum &&& 0xffff = sum % 2 ^ 16 := Nat.and_two_pow_sub_one_eq_mod sum 16
    have high : sum >>> 16 = sum / 2 ^ 16 := Nat.shiftRight_eq_div_pow sum 16
    rw [foldLoop, low, high]
    split
    · have shrinks : sum % 2 ^ 16 + sum / 2 ^ 16 ≤ left := by omega
      rw [ih _ shrinks, if_neg (by omega), if_neg (by omega)]
      omega
    · split <;> omega

theorem foldCarries_eq : foldCarries sum = if sum = 0 then 0 else (sum - 1) % 65535 + 1 :=
  foldLoop_eq sum sum le_rfl

theorem foldCarries_le : foldCarries sum ≤ 65535 := by
  rw [foldCarries_eq]
  split
  · exact Nat.zero_le _
  · exact Nat.succ_le_of_lt (Nat.mod_lt _ (by decide))

theorem foldCarries_modEq : foldCarries sum ≡ sum [MOD 65535] := by
  rw [foldCarries_eq]
  unfold Nat.ModEq
  split <;> omega

theorem toNat_fold : (fold sum).toNat = 65535 - foldCarries sum := by
  have le := foldCarries_le sum
  rw [fold, UInt16.toNat_not, UInt16.toNat_ofNat_of_lt' (by rw [UInt16.size]; omega)]
  rfl

end

/-- A sum checks out when it is a multiple of `2 ^ 16 - 1` other than zero. -/
theorem fold_eq_zero : fold sum = 0 ↔ sum ≠ 0 ∧ sum ≡ 0 [MOD 65535] := by
  rw [← UInt16.toNat_inj, toNat_fold, foldCarries_eq]
  unfold Nat.ModEq
  split
  · simp_all
  · simp only [UInt16.toNat_zero]
    omega

/-- With its checksum added, any sum checks out. -/
theorem fold_add_fold (sum : Nat) : fold (sum + (fold sum).toNat) = 0 := by
  rw [fold_eq_zero, toNat_fold, foldCarries_eq]
  unfold Nat.ModEq
  split <;> omega

/-- An updated checksum and the new word weigh what the old ones did. -/
theorem replaceWord_modEq (check old new : UInt16) :
    (replaceWord check old new).toNat + new.toNat ≡ check.toNat + old.toNat [MOD 65535] := by
  have folded := foldCarries_modEq ((~~~check).toNat + (~~~old).toNat + new.toNat)
  have le := foldCarries_le ((~~~check).toNat + (~~~old).toNat + new.toNat)
  have check_lt := check.toNat_lt
  have old_lt := old.toNat_lt
  rw [replaceWord, toNat_fold]
  generalize foldCarries _ = folded_sum at *
  rw [UInt16.toNat_not, UInt16.toNat_not] at folded
  unfold Nat.ModEq at *
  simp only [UInt16.size] at *
  omega

/-! ## Sums of parts -/

theorem wordSum_append (rest : Bytes) (even : Even front.length) :
    wordSum (front ++ rest) = wordSum front + wordSum rest := by
  induction front using wordSum.induct with
  | case1 => simp [wordSum]
  | case2 a => simp at even
  | case3 a b front ih =>
    have shorter : Even front.length := by
      simpa [Nat.even_add_one] using even
    simp only [List.cons_append, wordSum, ih shorter, Nat.add_assoc]

theorem wordSum_beBytes_two (n : Nat) : wordSum (beBytes 2 n) = n % 2 ^ 16 := by
  have value := beNat_beBytes 2 n
  rw [beBytes, beBytes, beBytes] at value ⊢
  simpa [beNat, wordSum] using value

variable {off : Nat} {p : Bytes}

/-- The parts of a string around an even slice of it. -/
theorem wordSum_split (p : Bytes) (even : Even off) (even' : Even len)
    (inside : off + len ≤ p.length) :
    wordSum p =
      wordSum (p.take off) + wordSum ((p.drop off).take len) + wordSum (p.drop (off + len)) := by
  have front : (p.take off).length = off := List.length_take_of_le (by omega)
  have middle : ((p.drop off).take len).length = len := by
    rw [List.length_take, List.length_drop]
    omega
  conv_lhs => rw [← List.take_append_drop off p, ← List.take_append_drop len (p.drop off)]
  rw [wordSum_append _ (by rwa [front]), wordSum_append _ (by rwa [middle]), List.drop_drop,
    Nat.add_assoc]

/-- Overwriting an even slice moves the sum by the difference. -/
theorem wordSum_splice (p bs : Bytes) (even : Even off) (even' : Even bs.length)
    (inside : off + bs.length ≤ p.length) :
    wordSum (splice p off bs) + wordSum ((p.drop off).take bs.length) = wordSum p + wordSum bs := by
  have front : (p.take off).length = off := List.length_take_of_le (by omega)
  rw [wordSum_split p even even' inside, splice, List.append_assoc,
    wordSum_append _ (by rwa [front]), wordSum_append _ even']
  ring

theorem wordSum_slice_two (inside : off + 2 ≤ p.length) :
    wordSum ((p.drop off).take 2) = (word p off).toNat := by
  rw [slice_two inside, word, toNat_be16, wordSum, wordSum, Nat.add_zero]

/-- Strings that differ in one word weigh differently by that word. -/
theorem wordSum_patch (h : Patch (fun i => off ≤ i ∧ i < off + 2) p q) (even : Even off)
    (inside : off + 2 ≤ p.length) :
    wordSum q + (word p off).toNat = wordSum p + (word q off).toNat := by
  have inside' : off + 2 ≤ q.length := by rwa [h.length]
  rw [wordSum_split p even even_two inside, wordSum_split q even even_two inside',
    wordSum_slice_two inside, wordSum_slice_two inside', h.take_eq (fun i before => by omega),
    h.drop_eq (fun i after => by omega)]
  ring

theorem wordSum_setWord (p : Bytes) (x : UInt16) (even : Even off) (inside : off + 2 ≤ p.length) :
    wordSum (setWord p off x) + (word p off).toNat = wordSum p + x.toNat := by
  have moved := wordSum_patch (Patch.of_setWord (x := x) inside) even inside
  rwa [word_setWord inside] at moved

/-- A sum is known up to what its words are known up to. -/
theorem wordSum_modEq (length : q.length = p.length)
    (words : ∀ i, (word q (2 * i)).toNat ≡ (word p (2 * i)).toNat [MOD m]) :
    wordSum q ≡ wordSum p [MOD m] := by
  induction p using wordSum.induct generalizing q with
  | case1 =>
    rw [List.length_eq_zero_iff.mp length]
  | case2 a =>
    obtain ⟨b, rfl⟩ := List.length_eq_one_iff.mp length
    simpa [word, toNat_be16, byte, wordSum] using words 0
  | case3 a b rest ih =>
    rcases q with _ | ⟨a', _ | ⟨b', rest'⟩⟩
    · exact absurd length (by simp)
    · exact absurd length (by simp)
    · have first := words 0
      have tail : wordSum rest' ≡ wordSum rest [MOD m] :=
        ih (by simpa using length) (fun i => words (i + 1))
      rw [word, word, toNat_be16, toNat_be16] at first
      exact Nat.ModEq.add first tail

/-- Replacing a word and updating the checksum for it keeps the sum. -/
theorem wordSum_replace (p : Bytes) (new : UInt16) (even : Even off)
    (even' : Even check) (inside : off + 2 ≤ p.length) (inside' : check + 2 ≤ p.length)
    (apart : check + 2 ≤ off ∨ off + 2 ≤ check) :
    wordSum (setWord (setWord p off new) check (replaceWord (word p check) (word p off) new)) ≡
      wordSum p [MOD 65535] := by
  have first := wordSum_setWord p new even inside
  have second := wordSum_setWord (setWord p off new)
    (replaceWord (word p check) (word p off) new) even' (by rwa [length_setWord inside])
  have updated := replaceWord_modEq (word p check) (word p off) new
  rw [word_setWord_of_ne inside apart] at second
  unfold Nat.ModEq at *
  omega

/-- What checks out still does after a word was replaced. `base` is what counts besides the
string. -/
theorem fold_replace (even : Even off) (even' : Even check) (inside : off + 2 ≤ p.length)
    (inside' : check + 2 ≤ p.length) (apart : check + 2 ≤ off ∨ off + 2 ≤ check) (based : 0 < base)
    (checks : fold (base + wordSum p) = 0) :
    fold (base + wordSum (setWord (setWord p off new) check
      (replaceWord (word p check) (word p off) new))) = 0 := by
  have kept := wordSum_replace p new even even' inside inside' apart
  rw [fold_eq_zero] at checks ⊢
  exact ⟨by omega, (Nat.ModEq.add_left base kept).trans checks.2⟩

/-- Writing the checksum into a field left zero makes the string check out. `base` is what
counts besides the string. -/
theorem fold_fill (base : Nat) (p : Bytes) (even : Even off) (inside : off + 2 ≤ p.length)
    (clear : (p.drop off).take 2 = [0, 0]) :
    fold (base + wordSum (splice p off (beBytes 2 (fold (base + wordSum p)).toNat))) = 0 := by
  have moved := wordSum_splice p (beBytes 2 (fold (base + wordSum p)).toNat) even
    (by rw [beBytes_length]; exact even_two) (by rwa [beBytes_length])
  rw [beBytes_length, clear, wordSum_beBytes_two,
    Nat.mod_eq_of_lt (fold (base + wordSum p)).toNat_lt] at moved
  have zero : wordSum [0, 0] = 0 := rfl
  rw [zero, Nat.add_zero] at moved
  rw [moved, ← Nat.add_assoc]
  exact fold_add_fold _

end Lib
