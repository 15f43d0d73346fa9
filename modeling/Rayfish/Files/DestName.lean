import Rayfish.Lib.Text
import Rayfish.Mesh.Group

/-!
# The names of received files

`dest_name.rs` and `is_safe_file_name`: the name a peer gave a file is cut to fit one
directory entry, and numbered while the name is taken. A safe name stays a single plain
directory entry through both (`isSafeFileName_numberedName`).
-/

namespace Rayfish

open Lib

def maxNameAttempts : Nat := 1000

def maxSavedName : Nat := 255 - 6 - 1

def maxKeptExtension : Nat := 32

/-- A plain name of one directory entry. -/
def isSafeFileName (name : Name) : Bool :=
  !name.isEmpty && !name.any (fun c => c == '/' || c == '\\' || c == '\x00') &&
    name != ['.'] && name != ['.', '.']

/-- The name before its last dot, and the rest from that dot on. -/
def splitExtension (name : Name) : Option (Name × Name) :=
  match (name.reverse.span (· != '.')) with
  | (_, []) => none
  | (extension, _ :: stem) => some (stem.reverse, '.' :: extension.reverse)

/-- The longest start of a name that fits a number of bytes. -/
def floorCharBoundary : Nat → Name → Name
  | _, [] => []
  | bound, c :: rest =>
    if c.utf8Size ≤ bound then c :: floorCharBoundary (bound - c.utf8Size) rest else []

def fittedName (fileName : Name) : Name :=
  if utf8Len fileName ≤ maxSavedName then fileName
  else
    match splitExtension fileName with
    | some (stem, extension) =>
      if stem ≠ [] ∧ utf8Len extension ≤ maxKeptExtension then
        floorCharBoundary (maxSavedName - utf8Len extension) stem ++ extension
      else floorCharBoundary maxSavedName fileName
    | none => floorCharBoundary maxSavedName fileName

/-- ` (n)` -/
def numberSuffix (attempt : Nat) : Name := " (".toList ++ Nat.toDigits 10 attempt ++ [')']

def numberedName (fileName : Name) (attempt : Nat) : Name :=
  if attempt = 0 then fileName
  else
    match splitExtension fileName with
    | some (stem, extension) =>
      if stem ≠ [] then stem ++ numberSuffix attempt ++ extension
      else fileName ++ numberSuffix attempt
    | none => fileName ++ numberSuffix attempt

/-! ## Safe names stay safe -/

theorem splitExtension_eq (split : splitExtension name = some (stem, extension)) :
    name = stem ++ extension := by
  unfold splitExtension at split
  rw [List.span_eq_takeWhile_dropWhile] at split
  cases rest : name.reverse.dropWhile (· != '.') with
  | nil =>
    rw [rest] at split
    cases split
  | cons c front =>
    rw [rest] at split
    cases split
    have dot : c = '.' := by
      have found := List.head?_dropWhile_not (fun c => c != '.') name.reverse
      rw [rest] at found
      simpa using found
    have whole := @List.takeWhile_append_dropWhile _ (· != '.') name.reverse
    rw [rest, dot] at whole
    rw [← List.reverse_inj, List.reverse_append, List.reverse_cons, List.reverse_reverse,
      List.reverse_reverse, List.append_assoc]
    exact whole.symm

theorem isSafeFileName_iff :
    isSafeFileName name = true ↔ name ≠ [] ∧ name ≠ ['.'] ∧ name ≠ ['.', '.'] ∧
      ∀ c ∈ name, c ≠ '/' ∧ c ≠ '\\' ∧ c ≠ '\x00' := by
  simp only [isSafeFileName, Bool.and_eq_true, Bool.not_eq_true', List.isEmpty_eq_false_iff,
    List.any_eq_false, bne_iff_ne, Bool.or_eq_true, beq_iff_eq, not_or, and_assoc]
  constructor
  · rintro ⟨nonempty, plain, one, two⟩
    exact ⟨nonempty, one, two, plain⟩
  · rintro ⟨nonempty, one, two, plain⟩
    exact ⟨nonempty, plain, one, two⟩

theorem utf8Len_append (a b : Name) : utf8Len (a ++ b) = utf8Len a + utf8Len b := by
  simp only [utf8Len, List.map_append, List.sum_append]

theorem mem_of_mem_floorCharBoundary (member : c ∈ floorCharBoundary bound name) : c ∈ name := by
  induction name generalizing bound with
  | nil => exact member
  | cons d rest ih =>
    unfold floorCharBoundary at member
    split at member
    · rcases List.mem_cons.mp member with rfl | later
      · exact List.mem_cons_self
      · exact List.mem_cons_of_mem _ (ih later)
    · exact absurd member List.not_mem_nil

/-- What is cut off leaves less than a character of room. -/
theorem lt_utf8Len_floorCharBoundary (long : bound < utf8Len name) :
    bound < utf8Len (floorCharBoundary bound name) + 4 := by
  induction name generalizing bound with
  | nil => exact absurd long (Nat.not_lt_zero bound)
  | cons c rest ih =>
    have parts : utf8Len (c :: rest) = c.utf8Size + utf8Len rest := List.sum_cons
    unfold floorCharBoundary
    split
    · have shorter : bound - c.utf8Size < utf8Len rest := by omega
      have kept := ih shorter
      have sum : utf8Len (c :: floorCharBoundary (bound - c.utf8Size) rest) =
        c.utf8Size + utf8Len (floorCharBoundary (bound - c.utf8Size) rest) := List.sum_cons
      omega
    · have small := c.utf8Size_le_four
      omega

/-- A name made of a safe name's characters that has more than two bytes. -/
theorem isSafeFileName_of_mem (safe : isSafeFileName name = true) (long : 2 < utf8Len other)
    (chars : ∀ c ∈ other, c ∈ name) : isSafeFileName other = true := by
  rw [isSafeFileName_iff] at safe ⊢
  refine ⟨?_, ?_, ?_, fun c member => safe.2.2.2 c (chars c member)⟩
  · rintro rfl
    exact absurd long (by decide)
  · rintro rfl
    exact absurd long (by decide)
  · rintro rfl
    exact absurd long (by decide)

theorem isSafeFileName_fittedName (safe : isSafeFileName name = true) :
    isSafeFileName (fittedName name) = true := by
  unfold fittedName
  split
  · exact safe
  next tooLong =>
  have long : maxSavedName < utf8Len name := Nat.lt_of_not_le tooLong
  have cut : isSafeFileName (floorCharBoundary maxSavedName name) = true := by
    refine isSafeFileName_of_mem safe ?_ fun c => mem_of_mem_floorCharBoundary
    have kept := lt_utf8Len_floorCharBoundary long
    have bound : maxSavedName = 248 := rfl
    omega
  split
  · next stem extension split =>
    have parts := splitExtension_eq split
    split
    · have sum : utf8Len name = utf8Len stem + utf8Len extension := by
        rw [parts, utf8Len_append]
      have bound : maxSavedName = 248 := rfl
      have kept := @lt_utf8Len_floorCharBoundary (maxSavedName - utf8Len extension) stem
      refine isSafeFileName_of_mem safe ?_ fun c member => ?_
      · rw [utf8Len_append]
        omega
      · rw [parts]
        rcases List.mem_append.mp member with front | back
        · exact List.mem_append_left _ (mem_of_mem_floorCharBoundary front)
        · exact List.mem_append_right _ back
    · exact cut
  · exact cut

theorem mem_numberSuffix (member : c ∈ numberSuffix attempt) :
    c = ' ' ∨ c = '(' ∨ c = ')' ∨ c.isDigit = true := by
  simp only [numberSuffix, List.mem_append, List.mem_singleton] at member
  rcases member with (opening | digit) | closing
  · have two : c = ' ' ∨ c = '(' := by simpa using opening
    exact two.imp_right .inl
  · exact .inr (.inr (.inr (Nat.isDigit_of_mem_toDigits (by decide) (by decide) digit)))
  · exact .inr (.inr (.inl closing))

theorem isSafeFileName_numbered (safe : isSafeFileName name = true) (parts : name = front ++ back) :
    isSafeFileName (front ++ numberSuffix attempt ++ back) = true := by
  have opening : '(' ∈ front ++ numberSuffix attempt ++ back := by
    simp [numberSuffix]
  rw [isSafeFileName_iff] at safe ⊢
  refine ⟨List.ne_nil_of_mem opening, ?_, ?_, fun c member => ?_⟩
  · intro same
    rw [same] at opening
    exact absurd opening (by decide)
  · intro same
    rw [same] at opening
    exact absurd opening (by decide)
  · rw [List.mem_append, List.mem_append] at member
    rcases member with (early | suffix) | late
    · exact safe.2.2.2 c (parts ▸ List.mem_append_left _ early)
    · rcases mem_numberSuffix suffix with rfl | rfl | rfl | digit
      · decide
      · decide
      · decide
      · refine ⟨?_, ?_, ?_⟩ <;>
        · rintro rfl
          exact absurd digit (by decide)
    · exact safe.2.2.2 c (parts ▸ List.mem_append_right _ late)

theorem isSafeFileName_numberedName (safe : isSafeFileName name = true) (attempt : Nat) :
    isSafeFileName (numberedName (fittedName name) attempt) = true := by
  have fitted := isSafeFileName_fittedName safe
  have whole : isSafeFileName (fittedName name ++ numberSuffix attempt) = true := by
    have numbered := @isSafeFileName_numbered _ (fittedName name) [] attempt fitted
      (List.append_nil _).symm
    rwa [List.append_nil] at numbered
  unfold numberedName
  split
  · exact fitted
  split
  · next stem extension split =>
    split
    · exact isSafeFileName_numbered fitted (splitExtension_eq split)
    · exact whole
  · exact whole

example : numberedName (fittedName "report.pdf".toList) 2 = "report (2).pdf".toList := by decide

end Rayfish
