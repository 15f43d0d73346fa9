import Mathlib.Data.Nat.Digits.Defs
import Rayfish.Hostname

/-!
# A queued rename

A node keeps the name it asked for until the signed blob grants it (`rename.rs`,
`apply_roster_to_dns`). What counts as granted is the name itself or the name with a number,
`alice-1` for `alice`. A coordinator that has to shorten the name grants something else, and
a node that had such a numbered name already takes it for the grant (`rename_cleared`).
-/

namespace Rayfish

def renameSatisfied (pending : Name) : Option Name → Bool
  | none => false
  | some name =>
    name == pending ||
      match pending.isPrefixOf? name with
      | some ('-' :: digits) => !digits.isEmpty && digits.all Char.isDigit
      | _ => false

/-- The two names of this node in the network's file. -/
structure OwnNames where
  myHostname : Option Name
  pendingHostname : Option Name

/-- The DNS entries of a roster, and the node's own names after it. -/
def applyRosterToDns (deriveIpv6 : EndpointId → Ipv6Addr) (members : MemberList)
    (me : EndpointId) (net : OwnNames) : List (Name × Ipv6Addr) × OwnNames :=
  let entries := (members.iter (· ≤ ·)).filterMap fun m =>
    m.hostname.map (·, deriveIpv6 m.identity)
  let blobSelf := (members.get me).bind (·.hostname)
  match net.pendingHostname.filter (!renameSatisfied · blobSelf) with
  | some pending =>
    -- the requested name is shown until the blob has it
    (if members.isMember me then
        entries.filter (·.2 ≠ deriveIpv6 me) ++ [(pending, deriveIpv6 me)] else entries,
      ⟨some pending, some pending⟩)
  | none => (entries, ⟨blobSelf.or net.myHostname, none⟩)

/-- `name` is `base` with a number. -/
def NumberedFrom (base name : Name) : Prop :=
  ∃ digits, digits ≠ [] ∧ (∀ d ∈ digits, d.isDigit = true) ∧ name = base ++ '-' :: digits

theorem renameSatisfied_iff :
    renameSatisfied pending (some name) = true ↔ name = pending ∨ NumberedFrom pending name := by
  have cut : ∀ rest, pending.isPrefixOf? name = some rest ↔ name = pending ++ rest := by
    intro rest
    rw [List.isPrefixOf?_eq_some_iff_append_eq, eq_comm]
  rw [renameSatisfied, Bool.or_eq_true, beq_iff_eq]
  refine or_congr_right ⟨fun h => ?_, ?_⟩
  · split at h
    · next digits found =>
      rw [Bool.and_eq_true, Bool.not_eq_true', List.isEmpty_eq_false_iff, List.all_eq_true] at h
      exact ⟨digits, h.1, h.2, (cut _).mp found⟩
    · cases h
  · rintro ⟨digits, nonempty, numeric, same⟩
    rw [(cut _).mpr same]
    simpa [nonempty] using numeric

/-- The intent survives a roster exactly when the name there does not satisfy it. -/
theorem pendingHostname_applyRosterToDns {deriveIpv6 : EndpointId → Ipv6Addr}
    {members : MemberList} {me : EndpointId} {net : OwnNames} {pending name : Name}
    (queued : net.pendingHostname = some pending)
    (seated : (members.get me).bind (·.hostname) = some name) :
    (applyRosterToDns deriveIpv6 members me net).2.pendingHostname =
      if renameSatisfied pending (some name) then none else some pending := by
  rw [applyRosterToDns, seated, queued]
  cases satisfied : renameSatisfied pending (some name) <;>
    simp [Option.filter, satisfied]

/-! ## What a coordinator assigns -/

variable {p : Name} {taken : Multiset Name}

/-- A name with room for the suffix keeps it whole. -/
theorem suffixedHostname_of_fits (valid : isValidHostname p = true)
    (fits : p.length + (Nat.toDigits 10 i).length + 1 ≤ 63) :
    suffixedHostname p i = p ++ '-' :: Nat.toDigits 10 i := by
  have unhyphened : p.getLast? ≠ some '-' := by
    intro hyphen
    simp [isValidHostname, hyphen] at valid
  have whole : p.rdropWhile (· == '-') = p := by
    rw [List.rdropWhile_eq_self_iff]
    intro nonempty
    simpa [List.getLast?_eq_some_getLast nonempty] using unhyphened
  rw [suffixedHostname, List.take_of_length_le (by simp; omega), whole]

/-- The shortened name shows: what stands before its last hyphen is not the name. -/
theorem fits_of_numberedFrom (valid : isValidHostname p = true)
    (numbered : NumberedFrom p (suffixedHostname p i)) :
    p.length + (Nat.toDigits 10 i).length + 1 ≤ 63 ∧
      suffixedHostname p i = p ++ '-' :: Nat.toDigits 10 i := by
  obtain ⟨digits, -, numeric, same⟩ := numbered
  have last := rtakeWhile_suffixedHostname p i
  rw [same, rtakeWhile_numbered p numeric] at last
  subst last
  refine ⟨?_, same⟩
  have base := List.append_cancel_right same
  have short := (List.rdropWhile_prefix (· == '-')
    (l := p.take (63 - ('-' :: Nat.toDigits 10 i).length))).length_le
  have nonempty : p.length ≠ 0 := by
    intro empty
    simp [isValidHostname, List.length_eq_zero_iff.mp empty] at valid
  rw [base, List.length_take, List.length_cons] at short
  omega

theorem length_toDigits_mono (least : j ≤ i) :
    (Nat.toDigits 10 j).length ≤ (Nat.toDigits 10 i).length := by
  have bound (n : Nat) : (Nat.toDigits 10 n).length ≤ (Nat.toDigits 10 i).length ↔ _ :=
    Nat.length_toDigits_le_iff (by decide) Nat.length_toDigits_pos
  exact (bound j).mpr (least.trans_lt ((bound i).mp le_rfl))

/-- A taken name gets the first free number. -/
theorem resolveCollision_of_taken (held : p ∈ taken) :
    ∃ i, 0 < i ∧ resolveCollision p taken = suffixedHostname p i ∧
      ∀ j, 0 < j → j < i → suffixedHostname p j ∈ taken := by
  have found := (Option.some_get (exists_free_suffix p taken)).symm
  rw [List.find?_range'_eq_some] at found
  obtain ⟨-, listed, before⟩ := found
  refine ⟨_, (List.mem_range'_1.mp listed).1, if_neg (not_not.mpr held), fun j positive less => ?_⟩
  simpa using before j positive less

/-- Some numbered form of the name fits one label and is free. -/
def FreeNumbered (p : Name) (taken : Multiset Name) : Prop :=
  ∃ i, 0 < i ∧ p.length + (Nat.toDigits 10 i).length + 1 ≤ 63 ∧
    p ++ '-' :: Nat.toDigits 10 i ∉ taken

theorem renameSatisfied_resolveCollision (valid : isValidHostname p = true) :
    renameSatisfied p (some (resolveCollision p taken)) = true ↔
      p ∉ taken ∨ FreeNumbered p taken := by
  rw [renameSatisfied_iff]
  by_cases held : p ∈ taken
  · have free := resolveCollision_free p taken
    obtain ⟨i, positive, settled, least⟩ := resolveCollision_of_taken held
    rw [settled] at free ⊢
    constructor
    · rintro (same | numbered)
      · exact absurd (same.symm ▸ held) free
      · obtain ⟨fits, shape⟩ := fits_of_numberedFrom valid numbered
        exact .inr ⟨i, positive, fits, shape ▸ free⟩
    · rintro (untaken | ⟨j, positive', fits, free'⟩)
      · exact absurd held untaken
      · -- the number that was found is no longer than one that fits
        rw [← suffixedHostname_of_fits valid fits] at free'
        have least : i ≤ j := Nat.le_of_not_lt fun less => free' (least j positive' less)
        have shorter := length_toDigits_mono least
        exact .inr ⟨_, Nat.toDigits_ne_nil, isDigit_toDigits i,
          suffixedHostname_of_fits valid (by omega)⟩
  · simp [resolveCollision, held]

/-- A queued rename at a roster that has the node under `name`. Where `name` is what a
coordinator assigned, the intent is cleared unless the name had to be shortened; where it is
the name from before, the intent is kept unless that is the requested name with a number. -/
theorem rename_cleared (valid : isValidHostname p = true) (taken : Multiset Name)
    {deriveIpv6 : EndpointId → Ipv6Addr} {members : MemberList} {me : EndpointId} {net : OwnNames}
    {name : Name} (queued : net.pendingHostname = some p)
    (seated : (members.get me).bind (·.hostname) = some name) :
    (admissionHostname p taken false = .ok name →
      ((applyRosterToDns deriveIpv6 members me net).2.pendingHostname = none ↔
        p ∉ taken ∨ FreeNumbered p taken)) ∧
    (name ≠ p →
      ((applyRosterToDns deriveIpv6 members me net).2.pendingHostname = some p ↔
        ¬NumberedFrom p name)) := by
  rw [pendingHostname_applyRosterToDns queued seated]
  refine ⟨fun assigned => ?_, fun renamed => ?_⟩
  · have assigned : resolveCollision p taken = name := by
      simpa [admissionHostname, valid] using assigned
    rw [← renameSatisfied_resolveCollision valid, assigned]
    simp
  · have granted : renameSatisfied p (some name) = true ↔ NumberedFrom p name :=
      renameSatisfied_iff.trans (or_iff_right renamed)
    rw [← granted]
    simp

/-- A roster of this node alone. -/
def seatedAs (name : Name) : MemberList :=
  Lib.KeyedMap.empty.insert ⟨1, false, some name, none, none, none, false, .unknown⟩

theorem rename_cleared_bob :
    (applyRosterToDns (fun _ => 0) (seatedAs "bob-1".toList) 1
        ⟨none, some "bob".toList⟩).2.pendingHostname = none ∧
      (applyRosterToDns (fun _ => 0) (seatedAs "carol".toList) 1
        ⟨none, some "bob".toList⟩).2.pendingHostname = some "bob".toList := by
  have valid : isValidHostname "bob".toList = true := by decide
  have seated : ∀ name, ((seatedAs name).get 1).bind (·.hostname) = some name := fun _ => rfl
  have free : FreeNumbered "bob".toList {"bob".toList} := ⟨1, by decide, by decide, by decide⟩
  refine ⟨((rename_cleared valid {"bob".toList} rfl (seated _)).1 (by decide +kernel)).mpr
    (.inr free), ((rename_cleared valid 0 rfl (seated _)).2 (by decide)).mpr ?_⟩
  rintro ⟨digits, -, -, same⟩
  cases same

/-- A node named `alice-1` asks for `alice`, and the intent is gone at once. A name of 63
letters is granted in a shortened form, and the intent stays. -/
theorem rename_lost :
    (applyRosterToDns (fun _ => 0) (seatedAs "alice-1".toList) 1
        ⟨none, some "alice".toList⟩).2.pendingHostname = none ∧
      ∃ name, admissionHostname (List.replicate 63 'a') {List.replicate 63 'a'} false = .ok name ∧
        (applyRosterToDns (fun _ => 0) (seatedAs name) 1
          ⟨none, some (List.replicate 63 'a')⟩).2.pendingHostname ≠ none :=
  ⟨by decide, List.replicate 61 'a' ++ "-1".toList, by decide +kernel, by decide +kernel⟩

end Rayfish
