import Rayfish.Lib.KeyedMap

/-!
# Maps filled by a fold

A map that is filled pair by pair, where a new value is combined with the one its key
already has. What ends up under a key is a fold over the values the pairs have for that
key (`OrdMap.lookup_gather`), so nothing has to be said about the map as a whole.
-/

namespace Lib

variable {κ ν β : Type*} [DecidableEq κ]

/-- The values that the pairs have for `k`. -/
def valuesAt (k : κ) (pairs : List (κ × β)) : List β :=
  pairs.filterMap fun (k', v) => if k' = k then some v else none

theorem valuesAt_cons (k : κ) (pair : κ × β) (pairs : List (κ × β)) :
    valuesAt k (pair :: pairs) =
      if pair.1 = k then pair.2 :: valuesAt k pairs else valuesAt k pairs := by
  obtain ⟨k', v⟩ := pair
  by_cases same : k' = k
  · simp only [valuesAt, List.filterMap_cons, same, if_true]
  · simp only [valuesAt, List.filterMap_cons, same, if_false]

@[simp] theorem mem_valuesAt {k : κ} {pairs : List (κ × β)} {v : β} :
    v ∈ valuesAt k pairs ↔ (k, v) ∈ pairs := by
  simp only [valuesAt, List.mem_filterMap, Prod.exists, Option.ite_none_right_eq_some,
    Option.some.injEq]
  constructor
  · rintro ⟨k', v', member, rfl, rfl⟩
    exact member
  · intro member
    exact ⟨k, v, member, rfl, rfl⟩

theorem valuesAt_append (k : κ) (left right : List (κ × β)) :
    valuesAt k (left ++ right) = valuesAt k left ++ valuesAt k right :=
  List.filterMap_append ..

/-- A pair of lists read as the pairs they make. -/
theorem valuesAt_map_pair [BEq κ] [LawfulBEq κ] (k : κ) (keys : List κ) (v : β) :
    valuesAt k (keys.map (·, v)) = List.replicate (keys.count k) v := by
  induction keys with
  | nil => rfl
  | cons key keys ih =>
    rw [List.map_cons, valuesAt_cons, ih, List.count_cons]
    by_cases same : key = k
    · simp only [same, beq_self_eq_true]
      rfl
    · simp only [same, if_false, beq_eq_false_iff_ne.mpr same, Bool.false_eq_true, Nat.add_zero]

/-- Pairs that give each of some keys the same value. -/
theorem valuesAt_flatMap [BEq κ] [LawfulBEq κ] (k : κ) (items : List α)
    (keys : α → List κ) (value : α → β) :
    valuesAt k (items.flatMap fun a => (keys a).map (·, value a)) =
      (items.flatMap fun a => List.replicate ((keys a).count k) a).map value := by
  induction items with
  | nil => rfl
  | cons a items ih =>
    rw [List.flatMap_cons, valuesAt_append, ih, valuesAt_map_pair, List.flatMap_cons,
      List.map_append, List.map_replicate]

namespace OrdMap

/-- The value under `k` replaced by what `f` makes of it. -/
def upsert (m : OrdMap κ ν) (k : κ) (f : Option ν → ν) : OrdMap κ ν :=
  Finmap.insert k (f (m.lookup k)) m

theorem lookup_upsert (m : OrdMap κ ν) (k k' : κ) (f : Option ν → ν) :
    (m.upsert k f).lookup k' = if k' = k then some (f (m.lookup k)) else m.lookup k' := by
  unfold upsert
  split
  · next same => rw [same, Finmap.lookup_insert]
  · next other => rw [Finmap.lookup_insert_of_ne _ other]

/-- Each pair combined with what its key has by then. -/
def gather (combine : Option ν → β → ν) (m : OrdMap κ ν) (pairs : List (κ × β)) : OrdMap κ ν :=
  pairs.foldl (fun m (k, v) => m.upsert k fun old => combine old v) m

theorem lookup_gather (combine : Option ν → β → ν) (m : OrdMap κ ν) (pairs : List (κ × β)) (k : κ) :
    (gather combine m pairs).lookup k =
      (valuesAt k pairs).foldl (fun old v => some (combine old v)) (m.lookup k) := by
  induction pairs generalizing m with
  | nil => rfl
  | cons pair pairs ih =>
    rw [gather, List.foldl_cons, ← gather, ih, lookup_upsert, valuesAt_cons]
    by_cases same : pair.1 = k
    · rw [if_pos same.symm, if_pos same, List.foldl_cons, same]
    · rw [if_neg (Ne.symm same), if_neg same]

end OrdMap

/-! ## Values merged under one key -/

/-- `M vs v` says that `v` is what the values `vs` are merged to. `combine` merges a value into
such a `v`, and two of them into one. -/
structure Merging (combine : Option ν → ν → ν) (M : List ν → ν → Prop) : Prop where
  filled : ∀ {vs a}, M vs a → vs ≠ []
  first : ∀ v, M [v] (combine none v)
  next : ∀ {vs a} v, M vs a → M (vs ++ [v]) (combine (some a) v)
  kept : ∀ {vs a}, M vs a → combine none a = a
  joined : ∀ {vs ws a b}, M vs a → M ws b → M (vs ++ ws) (combine (some a) b)

/-- The value is merged from exactly the values with `P`; there is none if no value has it. -/
def Gathered (M : List ν → ν → Prop) (P : ν → Prop) : Option ν → Prop
  | none => ∀ v, ¬P v
  | some a => ∃ vs, M vs a ∧ ∀ v, v ∈ vs ↔ P v

theorem Gathered.congr
    (gathered : Gathered M P found) (same : ∀ v, P v ↔ Q v) : Gathered M Q found := by
  rwa [show Q = P from funext fun v => propext (same v).symm]

namespace Merging

variable {combine : Option ν → ν → ν} {M : List ν → ν → Prop} (merging : Merging combine M)

include merging

theorem gathered_foldl (values : List ν) :
    Gathered M (· ∈ values) (values.foldl (fun old v => some (combine old v)) none) := by
  induction values using List.reverseRecOn with
  | nil => exact fun v => List.not_mem_nil
  | append_singleton values v ih =>
    rw [List.foldl_append]
    generalize values.foldl (fun old v => some (combine old v)) none = found at ih ⊢
    cases found with
    | none =>
      obtain rfl : values = [] := List.eq_nil_iff_forall_not_mem.mpr ih
      exact ⟨[v], merging.first v, fun v => Iff.rfl⟩
    | some a =>
      obtain ⟨vs, merged, same⟩ := ih
      refine ⟨vs ++ [v], merging.next v merged, fun w => ?_⟩
      simp only [List.mem_append, same]

/-- Values that were merged before are merged once more. -/
theorem gathered_filterMap {α : Type*} {look : α → Option ν} {P : α → ν → Prop} {items : List α}
    (each : ∀ a ∈ items, Gathered M (P a) (look a)) :
    Gathered M (fun v => ∃ a ∈ items, P a v)
      ((items.filterMap look).foldl (fun old v => some (combine old v)) none) := by
  induction items using List.reverseRecOn with
  | nil => exact fun v ⟨a, member, _⟩ => List.not_mem_nil member
  | append_singleton items a ih =>
    have ih := ih fun a member => each a (List.mem_append_left _ member)
    have last := each a (List.mem_append_right _ List.mem_cons_self)
    have split : ∀ v, (∃ b ∈ items ++ [a], P b v) ↔ (∃ b ∈ items, P b v) ∨ P a v := by
      intro v
      simp only [List.mem_append, List.mem_singleton, or_and_right, exists_or, exists_eq_left]
    rw [List.filterMap_append, List.foldl_append, List.filterMap_cons, List.filterMap_nil]
    generalize (items.filterMap look).foldl (fun old v => some (combine old v)) none = found
      at ih ⊢
    cases held : look a with
    | none =>
      rw [held] at last
      exact ih.congr fun v => by rw [split, or_iff_left (last v)]
    | some b =>
      rw [held] at last
      obtain ⟨ws, merged, same⟩ := last
      cases found with
      | none =>
        refine ⟨ws, ?_, fun v => ((same v).trans (or_iff_right (ih v)).symm).trans (split v).symm⟩
        rwa [merging.kept merged]
      | some a' =>
        obtain ⟨vs, before, held⟩ := ih
        refine ⟨vs ++ ws, merging.joined before merged, fun v => ?_⟩
        rw [List.mem_append, same]
        exact (or_congr_left (held v)).trans (split v).symm

theorem gathered_gather (pairs : List (κ × ν)) (k : κ) :
    Gathered M (fun v => (k, v) ∈ pairs) ((OrdMap.gather combine ∅ pairs).lookup k) := by
  rw [OrdMap.lookup_gather]
  exact (merging.gathered_foldl _).congr fun v => mem_valuesAt

omit [DecidableEq κ] in
theorem isSome_iff (gathered : Gathered M P found) : found.isSome ↔ ∃ v, P v := by
  cases found with
  | none => exact iff_of_false Bool.false_ne_true fun ⟨v, holds⟩ => gathered v holds
  | some a =>
    obtain ⟨vs, merged, same⟩ := gathered
    obtain ⟨v, rest, rfl⟩ := List.exists_cons_of_ne_nil (merging.filled merged)
    exact iff_of_true rfl ⟨v, (same v).mp List.mem_cons_self⟩

omit [DecidableEq κ] in
/-- Values merged from the same values are related as merged values are. -/
theorem gathered_related (gathered : Gathered M P found) (gathered' : Gathered M P found')
    (related : ∀ {vs vs' v v'}, M vs v → M vs' v' → (∀ w, w ∈ vs ↔ w ∈ vs') → R v v') :
    Option.Rel R found found' := by
  have both : found.isSome ↔ found'.isSome :=
    (merging.isSome_iff gathered).trans (merging.isSome_iff gathered').symm
  cases found with
  | none =>
    obtain rfl : found' = none := Option.not_isSome_iff_eq_none.mp (mt both.mpr Bool.false_ne_true)
    exact .none
  | some v =>
    obtain ⟨v', rfl⟩ := Option.isSome_iff_exists.mp (both.mp rfl)
    obtain ⟨vs, merged, same⟩ := gathered
    obtain ⟨vs', merged', same'⟩ := gathered'
    exact .some (related merged merged' fun w => (same w).trans (same' w).symm)

end Merging

section Sorted

variable (r : κ → κ → Prop) [DecidableRel r] [Std.Total r] [IsTrans κ r] [Std.Antisymm r]

omit [DecidableEq κ] in
theorem sorted_nodup (s : Finset κ) : (sorted r s).Nodup := by
  obtain ⟨⟨l⟩, nodup⟩ := s
  exact (List.perm_insertionSort r l).nodup_iff.mpr nodup

/-- The elements of a sorted set in order are that set. -/
theorem sorted_toFinset (s : Finset κ) : (sorted r s).toFinset = s := by
  ext k
  rw [List.mem_toFinset, mem_sorted]

/-- A map has one value under each key. -/
theorem OrdMap.valuesAt_iter (m : OrdMap κ ν) (k : κ) :
    valuesAt k (OrdMap.iter r m) = (m.lookup k).toList := by
  have keyed : ∀ keys : List κ, keys.Nodup →
      valuesAt k (keys.filterMap fun k => (m.lookup k).map (k, ·)) =
        if k ∈ keys then (m.lookup k).toList else [] := by
    intro keys
    induction keys with
    | nil => exact fun _ => rfl
    | cons key keys ih =>
      intro nodup
      obtain ⟨fresh, rest⟩ := List.nodup_cons.mp nodup
      rw [List.filterMap_cons]
      cases held : m.lookup key with
      | none =>
        rw [Option.map_none, ih rest]
        by_cases same : k = key
        · subst same
          rw [if_neg fresh, if_pos List.mem_cons_self, held]
          rfl
        · simp only [List.mem_cons, same, false_or]
      | some v =>
        rw [Option.map_some, valuesAt_cons, ih rest]
        by_cases same : key = k
        · subst same
          rw [if_pos rfl, if_neg fresh, if_pos List.mem_cons_self, held]
          rfl
        · simp only [same, if_false, List.mem_cons, Ne.symm same, false_or]
  rw [OrdMap.iter, keyed _ (sorted_nodup r m.keys)]
  split
  · rfl
  · next absent =>
    have : m.lookup k = none :=
      Finmap.lookup_eq_none.mpr fun bound => absent ((mem_sorted r).mpr (Finmap.mem_keys.mpr bound))
    rw [this]
    rfl

/-- A map filled from its own pairs. -/
theorem OrdMap.gather_iter {combine : Option ν → ν → ν} {m : OrdMap κ ν}
    (kept : ∀ k v, m.lookup k = some v → combine none v = v) :
    OrdMap.gather combine ∅ (OrdMap.iter r m) = m := by
  refine Finmap.ext_lookup fun k => ?_
  rw [lookup_gather, valuesAt_iter, Finmap.lookup_empty]
  cases held : m.lookup k with
  | none => rfl
  | some v => exact congrArg some (kept k v held)

/-- `l` has the elements of `P`, their keys strictly ascending. -/
structure Enumerates {α : Type*} (key : α → κ) (P : α → Prop) (l : List α) : Prop where
  ascending : l.Pairwise fun a b => r (key a) (key b) ∧ key a ≠ key b
  mem_iff : ∀ a, a ∈ l ↔ P a

omit [DecidableEq κ] [DecidableRel r] [Std.Total r] [IsTrans κ r] in
theorem Enumerates.unique (h : Enumerates r key P l) (h' : Enumerates r key P l') : l = l' := by
  have irrefl : Std.Irrefl fun a b => r (key a) (key b) ∧ key a ≠ key b := ⟨fun _ h => h.2 rfl⟩
  have antisymm : Std.Antisymm fun a b => r (key a) (key b) ∧ key a ≠ key b :=
    ⟨fun _ _ h h' => absurd (Std.Antisymm.antisymm _ _ h.1 h'.1) h.2⟩
  exact h.ascending.eq_of_mem_iff h'.ascending fun a => (h.mem_iff a).trans (h'.mem_iff a).symm

omit [DecidableEq κ] in
theorem enumerates_sorted (s : Finset κ) : Enumerates r id (· ∈ s) (sorted r s) := by
  refine ⟨List.Pairwise.and ?_ (sorted_nodup r s), fun _ => mem_sorted r⟩
  obtain ⟨⟨l⟩, _⟩ := s
  exact List.pairwise_insertionSort r l

theorem OrdMap.enumerates_iter (m : OrdMap κ ν) :
    Enumerates r Prod.fst (fun e => m.lookup e.1 = some e.2) (OrdMap.iter r m) := by
  refine ⟨(enumerates_sorted r m.keys).ascending.filterMap _ ?_, fun _ => OrdMap.mem_iter r⟩
  intro k k' before e held e' held'
  obtain ⟨_, _, rfl⟩ := Option.map_eq_some_iff.mp held
  obtain ⟨_, _, rfl⟩ := Option.map_eq_some_iff.mp held'
  exact before

end Sorted

end Lib
