import Rayfish.Lib.BigEndian

/-!
# Byte strings that differ in known places

`Patch F p q`: `q` is `p` with bytes at places in `F` written over. Edits compose, and
whatever is read elsewhere is read unchanged.
-/

namespace Lib

structure Patch (F : Nat → Prop) (p q : Bytes) : Prop where
  length : q.length = p.length
  rest : ∀ i, ¬F i → q[i]? = p[i]?

namespace Patch

variable {F G : Nat → Prop} {p q r bs : Bytes} {off n : Nat} {x : UInt16}

theorem refl (F : Nat → Prop) (p : Bytes) : Patch F p p := ⟨rfl, fun _ _ => rfl⟩

theorem trans (first : Patch F p q) (second : Patch F q r) : Patch F p r :=
  ⟨second.length.trans first.length, fun i out => (second.rest i out).trans (first.rest i out)⟩

theorem mono (h : Patch F p q) (wider : ∀ i, F i → G i) : Patch G p q :=
  ⟨h.length, fun i out => h.rest i (mt (wider i) out)⟩

theorem byte_eq (h : Patch F p q) (i : Nat) (out : ¬F i) : byte q i = byte p i :=
  byte_eq_of_getElem? (h.rest i out)

theorem word_eq (h : Patch F p q) (off : Nat) (out : ¬F off) (out' : ¬F (off + 1)) :
    word q off = word p off :=
  word_eq_of_getElem? (h.rest off out) (h.rest (off + 1) out')

theorem slice_eq (h : Patch F p q) (off n : Nat) (out : ∀ i, off ≤ i → i < off + n → ¬F i) :
    (q.drop off).take n = (p.drop off).take n := by
  apply List.ext_getElem?
  intro i
  rw [List.getElem?_take, List.getElem?_take]
  split
  · rw [List.getElem?_drop, List.getElem?_drop, h.rest (off + i) (out _ (by omega) (by omega))]
  · rfl

theorem of_splice (inside : off + bs.length ≤ p.length) :
    Patch (fun i => off ≤ i ∧ i < off + bs.length) p (splice p off bs) :=
  ⟨length_splice inside, fun _ out => getElem?_splice_of_ne inside (by omega)⟩

theorem of_setWord (inside : off + 2 ≤ p.length) :
    Patch (fun i => off ≤ i ∧ i < off + 2) p (setWord p off x) :=
  ⟨length_setWord inside, fun _ out => getElem?_setWord_of_ne inside (by omega)⟩

variable (h : Patch F p q)

include h

theorem drop (off : Nat) : Patch (fun i => F (off + i)) (p.drop off) (q.drop off) := by
  refine ⟨by rw [List.length_drop, List.length_drop, h.length], fun i out => ?_⟩
  rw [List.getElem?_drop, List.getElem?_drop, h.rest (off + i) out]

theorem take (n : Nat) : Patch F (p.take n) (q.take n) := by
  refine ⟨by rw [List.length_take, List.length_take, h.length], fun i out => ?_⟩
  rw [List.getElem?_take, List.getElem?_take, h.rest i out]

theorem append (rest : Bytes) : Patch F (p ++ rest) (q ++ rest) := by
  refine ⟨by rw [List.length_append, List.length_append, h.length], fun i out => ?_⟩
  rw [List.getElem?_append, List.getElem?_append, h.length, h.rest i out]

theorem take_eq (out : ∀ i < n, ¬F i) : q.take n = p.take n := by
  have same := h.slice_eq 0 n (fun i _ before => out i (by omega))
  simpa using same

theorem drop_eq (out : ∀ i, n ≤ i → ¬F i) : q.drop n = p.drop n := by
  apply List.ext_getElem?
  intro i
  rw [List.getElem?_drop, List.getElem?_drop, h.rest (n + i) (out _ (Nat.le_add_right n i))]

end Patch

end Lib
