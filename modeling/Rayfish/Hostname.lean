import Mathlib.Data.List.DropRight
import Mathlib.Data.Multiset.Dedup
import Rayfish.Mesh.Group

/-!
# Hostnames

Which names are valid labels, and how a coordinator settles the name of a peer it
admits (`hostname.rs`). A name bound by an invite is taken as it is or refused; a
name the joiner chose gets the first free suffix. The suffixed names of one base are
pairwise different, so one of the first `taken.card + 1` is free, and the settled
name is never a taken one (`resolveCollision_free`, `admissionHostname_free`).
-/

namespace Rayfish

def isValidHostname (name : Name) : Bool :=
  if name.isEmpty || name.length > 63 then false
  else if name.head? == some '-' || name.getLast? == some '-' then false
  else name.all fun c => c.isLower || c.isDigit || c == '-'

section

variable (desired : Name)

/-- `desired` with suffix `-i`, its base shortened so that the name fits one label. -/
def suffixedHostname (i : Nat) : Name :=
  let suffix := '-' :: Nat.toDigits 10 i
  (desired.take (63 - suffix.length)).rdropWhile (· == '-') ++ suffix

/-- What follows the last hyphen of a numbered name is the number. -/
theorem rtakeWhile_numbered (base : Name) (numeric : ∀ d ∈ digits, d.isDigit = true) :
    (base ++ '-' :: digits).rtakeWhile (· != '-') = digits := by
  have plain : ∀ c ∈ digits.reverse, (c != '-') = true := by
    intro c member
    have digit := numeric c (List.mem_reverse.mp member)
    refine bne_iff_ne.mpr fun hyphen => ?_
    rw [hyphen] at digit
    exact absurd digit (by decide)
  rw [List.rtakeWhile, List.reverse_append, List.reverse_cons, List.append_assoc,
    List.takeWhile_append_of_pos plain]
  simp

theorem isDigit_toDigits (i : Nat) : ∀ d ∈ Nat.toDigits 10 i, d.isDigit = true := fun _ =>
  Nat.isDigit_of_mem_toDigits (by decide) (by decide)

theorem rtakeWhile_suffixedHostname (i : Nat) :
    (suffixedHostname desired i).rtakeWhile (· != '-') = Nat.toDigits 10 i :=
  rtakeWhile_numbered _ (isDigit_toDigits i)

theorem suffixedHostname_injective : Function.Injective (suffixedHostname desired) := by
  intro i j same
  have digits : Nat.toDigits 10 i = Nat.toDigits 10 j := by
    rw [← rtakeWhile_suffixedHostname desired, ← rtakeWhile_suffixedHostname desired, same]
  have value := congrArg (Nat.ofDigitChars 10 · 0) digits
  rwa [Nat.ofDigitChars_ten_toDigits, Nat.ofDigitChars_ten_toDigits] at value

/-- One of the first `taken.card + 1` suffixes is free. -/
theorem exists_free_suffix (taken : Multiset Name) :
    ((List.range' 1 (taken.card + 1)).find? fun i =>
      suffixedHostname desired i ∉ taken).isSome := by
  rw [List.find?_isSome]
  by_contra none_free
  push Not at none_free
  let tried : Multiset Name := (List.range' 1 (taken.card + 1)).map (suffixedHostname desired)
  have distinct : tried.Nodup :=
    Multiset.coe_nodup.mpr ((List.nodup_range' ..).map (suffixedHostname_injective desired))
  have inside : tried ⊆ taken := by
    intro name member
    obtain ⟨i, numbered, rfl⟩ := List.mem_map.mp (Multiset.mem_coe.mp member)
    simpa using none_free i numbered
  have fits := Multiset.card_le_card ((Multiset.le_iff_subset distinct).mpr inside)
  rw [Multiset.coe_card, List.length_map, List.length_range'] at fits
  omega

def resolveCollision (taken : Multiset Name) : Name :=
  if desired ∉ taken then desired
  else
    suffixedHostname desired
      (((List.range' 1 (taken.card + 1)).find? fun i => suffixedHostname desired i ∉ taken).get
        (exists_free_suffix desired taken))

theorem resolveCollision_free (taken : Multiset Name) : resolveCollision desired taken ∉ taken := by
  unfold resolveCollision
  split
  · assumption
  · have found := List.find?_some (Option.some_get (exists_free_suffix desired taken)).symm
    exact of_decide_eq_true found

/-- The name a peer is admitted under, or the reason of the refusal. `taken` leaves out
the joiner's own name. -/
def admissionHostname (taken : Multiset Name) (authoritative : Bool) : Except (List Char) Name :=
  -- a dotted claim would answer for a host of another network
  if !isValidHostname desired then .error ("invalid hostname '".toList ++ desired ++ "'".toList)
  else if authoritative then
    if desired ∈ taken then
      .error ("hostname '".toList ++ desired ++ "' is already in use on this network".toList)
    else .ok desired
  else .ok (resolveCollision desired taken)

end

theorem admissionHostname_free (h : admissionHostname desired taken authoritative = .ok name) :
    name ∉ taken := by
  unfold admissionHostname at h
  split at h
  · cases h
  · split at h
    · split at h
      · cases h
      · next free =>
        cases h
        exact free
    · cases h
      exact resolveCollision_free desired taken

end Rayfish
