import Mathlib.Algebra.GroupWithZero.Nat
import Mathlib.Data.List.DropRight

/-!
# Text

Character lists with the string operations of a systems language's library: trimming,
splitting at the first separator, and unsigned decimal numbers of a fixed width.
-/

namespace Lib

/-- The Unicode property `White_Space`. -/
def isWhitespace (c : Char) : Bool :=
  let n := c.toNat
  (9 ≤ n && n ≤ 13) || n == 0x20 || n == 0x85 || n == 0xA0 || n == 0x1680 ||
    (0x2000 ≤ n && n ≤ 0x200A) || n == 0x2028 || n == 0x2029 || n == 0x202F || n == 0x205F ||
    n == 0x3000

def trim (s : List Char) : List Char := (s.dropWhile isWhitespace).rdropWhile isWhitespace

/-- What stands before and after the first `c`. -/
def splitOnce (c : Char) : List Char → Option (List Char × List Char)
  | [] => none
  | d :: rest =>
    if d = c then some ([], rest)
    else (splitOnce c rest).map fun (left, right) => (d :: left, right)

/-- The rest of a text that starts with `start`. -/
def afterStart [DecidableEq α] : List α → List α → Option (List α)
  | [], s => some s
  | _ :: _, [] => none
  | a :: start, b :: s => if a = b then afterStart start s else none

/-- What stands before and after the last `c`. -/
def rsplitOnce (c : Char) (s : List Char) : Option (List Char × List Char) :=
  (splitOnce c s.reverse).map fun (right, left) => (left.reverse, right.reverse)

/-- The rest of a text that ends with `ending`. -/
def beforeEnd (ending s : List Char) : Option (List Char) :=
  (afterStart ending.reverse s.reverse).map List.reverse

/-- A decimal number below `bound`. A plus sign may precede it. -/
def parseUnsigned (bound : Nat) (s : List Char) : Option Nat :=
  let digits := if s.head? = some '+' then s.tail else s
  if digits.isEmpty || !digits.all Char.isDigit then none
  else
    let n := digits.foldl (fun n d => 10 * n + (d.toNat - '0'.toNat)) 0
    if n < bound then some n else none

/-- The value of a hexadecimal digit. -/
def hexDigit (c : Char) : Option Nat :=
  if c.isDigit then some (c.toNat - '0'.toNat)
  else if 'a' ≤ c ∧ c ≤ 'f' then some (c.toNat - 'a'.toNat + 10)
  else if 'A' ≤ c ∧ c ≤ 'F' then some (c.toNat - 'A'.toNat + 10)
  else none

/-- A hexadecimal number below `bound`. A plus sign may precede it. -/
def parseHex (bound : Nat) (s : List Char) : Option Nat :=
  let digits := if s.head? = some '+' then s.tail else s
  match digits.mapM hexDigit with
  | none | some [] => none
  | some values =>
    let n := values.foldl (fun n d => 16 * n + d) 0
    if n < bound then some n else none

theorem afterStart_isSome_iff [DecidableEq α] {start s : List α} :
    (afterStart start s).isSome ↔ start <+: s := by
  induction start generalizing s with
  | nil => exact iff_of_true rfl List.nil_prefix
  | cons a start ih =>
    cases s with
    | nil => exact iff_of_false nofun fun front => nomatch List.prefix_nil.mp front
    | cons b s =>
      rw [afterStart]
      by_cases same : a = b
      · rw [if_pos same, ih, same, List.prefix_cons_inj]
      · rw [if_neg same]
        exact iff_of_false nofun fun front => same (List.cons_prefix_cons.mp front).1

variable {s : List Char} {c : Char}

theorem beforeEnd_isSome_iff {ending : List Char} : (beforeEnd ending s).isSome ↔ ending <:+ s := by
  rw [beforeEnd, Option.isSome_map, afterStart_isSome_iff, List.reverse_prefix]

theorem afterStart_append [DecidableEq α] (start s : List α) :
    afterStart start (start ++ s) = some s := by
  induction start with
  | nil => rfl
  | cons a start ih => rwa [List.cons_append, afterStart, if_pos rfl]

theorem beforeEnd_append (s ending : List Char) : beforeEnd ending (s ++ ending) = some s := by
  rw [beforeEnd, List.reverse_append, afterStart_append, Option.map_some, List.reverse_reverse]

theorem splitOnce_append (absent : c ∉ left) (right : List Char) :
    splitOnce c (left ++ c :: right) = some (left, right) := by
  induction left with
  | nil => exact if_pos rfl
  | cons d left ih =>
    have differs : ¬d = c := (List.ne_of_not_mem_cons absent).symm
    rw [List.cons_append, splitOnce, if_neg differs, ih (List.not_mem_of_not_mem_cons absent)]
    rfl

theorem rsplitOnce_append (left : List Char) (absent : c ∉ right) :
    rsplitOnce c (left ++ c :: right) = some (left, right) := by
  rw [rsplitOnce, List.reverse_append, List.reverse_cons, List.append_assoc, List.singleton_append,
    splitOnce_append (by rwa [List.mem_reverse]), Option.map_some]
  dsimp only
  rw [List.reverse_reverse, List.reverse_reverse]

/-- The bytes a text takes. -/
def utf8Len (s : List Char) : Nat := (s.map Char.utf8Size).sum

theorem utf8Len_eq_length (ascii : ∀ c ∈ s, c.utf8Size = 1) : utf8Len s = s.length := by
  have ones : s.map Char.utf8Size = s.map fun _ => 1 := List.map_congr_left ascii
  rw [utf8Len, ones, List.map_const', List.sum_replicate_nat, Nat.mul_one]

/-- What surrounds a text is trimmed away. -/
theorem trim_surrounded (solid : ∀ c ∈ s, isWhitespace c = false)
    (front : ∀ c ∈ before, isWhitespace c = true) (back : ∀ c ∈ after, isWhitespace c = true) :
    trim (before ++ s ++ after) = s := by
  cases s with
  | nil =>
    have blank : ∀ c ∈ before ++ [] ++ after, isWhitespace c = true := by
      intro c member
      rw [List.append_nil, List.mem_append] at member
      exact member.elim (front c) (back c)
    rw [trim, List.dropWhile_eq_nil_iff.mpr blank]
    rfl
  | cons c s =>
    have started : (before ++ (c :: s) ++ after).dropWhile isWhitespace = c :: s ++ after := by
      rw [List.append_assoc, List.dropWhile_append_of_pos front]
      exact List.dropWhile_cons_of_neg (by simp [solid c List.mem_cons_self])
    have ended : (c :: s).rdropWhile isWhitespace = c :: s := by
      rw [List.rdropWhile_eq_self_iff]
      intro filled
      simp [solid _ (List.getLast_mem filled)]
    rw [trim, started, List.rdropWhile, List.reverse_append,
      List.dropWhile_append_of_pos fun d member => back d (List.mem_reverse.mp member),
      ← List.rdropWhile, ended]

theorem trim_eq_self (solid : ∀ c ∈ s, isWhitespace c = false) : trim s = s := by
  simpa using @trim_surrounded s [] [] solid (List.forall_mem_nil _) (List.forall_mem_nil _)

theorem trim_trim (s : List Char) : trim (trim s) = trim s := by
  have front : (trim s).dropWhile isWhitespace = trim s := by
    unfold trim
    generalize kept : s.dropWhile isWhitespace = t
    cases t with
    | nil => rfl
    | cons c t =>
      have head : isWhitespace c = false := by
        have := List.head_dropWhile_not isWhitespace (l := s) (kept ▸ List.cons_ne_nil c t)
        simpa only [kept, List.head_cons] using this
      cases short : (c :: t).rdropWhile isWhitespace with
      | nil => rfl
      | cons d u =>
        have front := List.rdropWhile_prefix isWhitespace (c :: t)
        rw [short] at front
        obtain ⟨rfl, -⟩ := List.cons_prefix_cons.mp front
        exact List.dropWhile_cons_of_neg (Bool.not_eq_true _ ▸ head)
  conv_lhs => rw [trim, front]
  exact List.rdropWhile_idempotent ..

theorem mem_of_mem_trim (member : c ∈ trim s) : c ∈ s :=
  (List.dropWhile_suffix _).subset ((List.rdropWhile_prefix _ _).subset member)

/-- Splitting leaves no separator. -/
theorem not_mem_of_mem_splitOn (member : part ∈ s.splitOn c) : c ∉ part := by
  induction s generalizing part with
  | nil =>
    rw [List.splitOn_nil, List.mem_singleton] at member
    rw [member]
    exact List.not_mem_nil
  | cons d s ih =>
    rw [List.splitOn_cons_eq_if_modifyHead] at member
    split at member
    · rcases List.mem_cons.mp member with rfl | member
      · exact List.not_mem_nil
      · exact ih member
    · next other =>
      cases parts : s.splitOn c with
      | nil => exact absurd parts (List.splitOn_ne_nil c s)
      | cons first rest =>
        rw [parts] at member
        rcases List.mem_cons.mp member with rfl | member
        · have clean : c ∉ first := ih (parts ▸ List.mem_cons_self)
          simp only [List.mem_cons, clean, or_false]
          exact fun same => other (by simp [same])
        · exact ih (parts ▸ List.mem_cons_of_mem _ member)

end Lib
