import Mathlib.Data.Countable.Basic
import Mathlib.Logic.Equiv.List
import Mathlib.Tactic.DeriveCountable
import Rayfish.Lib.MapFold
import Rayfish.Mesh.Group

/-!
# The encoding of the group blob

Every collection of a group is written in the order of its keys (`canonical_group_bytes`), and
decoding inserts the entries one after the other, so a repeated key keeps its last value.
MessagePack is a parameter that reads back what it wrote (`RmpBlob`). `group_blob_canonical`
says that the bytes depend on the contents alone, whatever edits led to them.
-/

namespace Rayfish

open Lib

/-- The fields as they are written: sequences in key order. -/
structure WireBlob where
  members : List Member
  approved : List ApprovedEntry
  suggestedFirewall : List (Name × List (Name × Name) × List (Name × Name))
  name : Option Name
  reusableKeys : List (Name × ReusableKey)
  nullifiers : List EndpointId

/-- `rmp_serde` at the type of the blob. -/
structure RmpBlob where
  toVec : WireBlob → Bytes
  fromSlice : Bytes → Option WireBlob
  fromSlice_toVec : ∀ blob, fromSlice (toVec blob) = some blob

def HostSuggestions.serialize (s : HostSuggestions) : List (Name × Name) × List (Name × Name) :=
  (OrdMap.iter (· ≤ ·) s.allows, OrdMap.iter (· ≤ ·) s.denies)

def GroupBlob.serialize (group : GroupBlob) : WireBlob where
  members := group.members.iter (· ≤ ·)
  approved := group.approved.iter (· ≤ ·)
  suggestedFirewall := (OrdMap.iter (· ≤ ·) group.suggestedFirewall).map (Prod.map id (·.serialize))
  name := group.name
  reusableKeys := OrdMap.iter (· ≤ ·) group.reusableKeys
  nullifiers := sorted (· ≤ ·) group.nullifiers

/-- A sorted map filled from a sequence of entries. -/
def fromEntries {κ ν : Type} [DecidableEq κ] (entries : List (κ × ν)) : OrdMap κ ν :=
  OrdMap.gather (fun _ v => v) ∅ entries

/-- `MemberList::from` and `ApprovedList::from`. -/
def fromValues {κ ν : Type} [DecidableEq κ] {key : ν → κ} (values : List ν) : KeyedMap key :=
  values.foldl KeyedMap.insert .empty

def WireBlob.deserialize (blob : WireBlob) : GroupBlob where
  members := fromValues blob.members
  approved := fromValues blob.approved
  suggestedFirewall := fromEntries (blob.suggestedFirewall.map
    (Prod.map id fun (allows, denies) => ⟨fromEntries allows, fromEntries denies⟩))
  name := blob.name
  reusableKeys := fromEntries blob.reusableKeys
  nullifiers := blob.nullifiers.toFinset

section Codec

variable {Hash : Type} [DecidableEq Hash] (rmp : RmpBlob) (blake3 : Bytes → Hash)

def canonicalGroupBytes (group : GroupBlob) : Bytes := rmp.toVec group.serialize

def groupBlobHash (group : GroupBlob) : Hash := blake3 (canonicalGroupBytes rmp group)

def decodeGroupBlob (bytes : Bytes) : Option GroupBlob :=
  (rmp.fromSlice bytes).map WireBlob.deserialize

def verifyGroupBlob (bytes : Bytes) (expected : Hash) : Option GroupBlob :=
  if blake3 bytes = expected then decodeGroupBlob rmp bytes else none

end Codec

/-- What is done to a group's collections. A member changed in place keeps its identity. -/
inductive GroupEdit where
  | add (member : Member)
  | remove (id : EndpointId)
  | change (id : EndpointId) (f : Member → Member)
  | approve (entry : ApprovedEntry)
  | unapprove (id : EndpointId)
  | nullify (id : EndpointId)
  | clearNullifier (id : EndpointId)
  | insertKey (hash : Name) (key : ReusableKey)
  | removeKey (hash : Name)
  | suggest (suggestions : SuggestedFirewall)

def GroupBlob.edit (g : GroupBlob) : GroupEdit → GroupBlob
  | .add member => { g with members := g.members.insert member }
  | .remove id => { g with members := g.members.erase id }
  | .change id f =>
    { g with members := g.members.modify id fun m => { f m with identity := m.identity } }
  | .approve entry => { g with approved := g.approved.insert entry }
  | .unapprove id => { g with approved := g.approved.erase id }
  | .nullify id => { g with nullifiers := insert id g.nullifiers }
  | .clearNullifier id => { g with nullifiers := g.nullifiers.erase id }
  | .insertKey hash key => { g with reusableKeys := g.reusableKeys.insert hash key }
  | .removeKey hash => { g with reusableKeys := g.reusableKeys.erase hash }
  | .suggest suggestions => { g with suggestedFirewall := suggestions }

/-! ## Contents -/

/-- What stands under each key of a map of suggestions. -/
abbrev SuggestedContents := Name → Option ((Name → Option Name) × (Name → Option Name))

/-- What stands under each key of a group's collections. -/
structure Contents where
  members : EndpointId → Option Member
  approved : EndpointId → Option ApprovedEntry
  suggested : SuggestedContents
  name : Option Name
  keys : Name → Option ReusableKey
  nullified : Set EndpointId

def SuggestedFirewall.contents (s : SuggestedFirewall) : SuggestedContents := fun host =>
  (s.lookup host).map fun h => (h.allows.lookup, h.denies.lookup)

def GroupBlob.contents (g : GroupBlob) : Contents where
  members := g.members.get
  approved := g.approved.get
  suggested := SuggestedFirewall.contents g.suggestedFirewall
  name := g.name
  keys := g.reusableKeys.lookup
  nullified := g.nullifiers

/-- What an edit means for the contents. -/
def Contents.edit (c : Contents) : GroupEdit → Contents
  | .add member => { c with members := Function.update c.members member.identity (some member) }
  | .remove id => { c with members := Function.update c.members id none }
  | .change id f =>
    let changed := (c.members id).map fun m => { f m with identity := m.identity }
    { c with members := Function.update c.members id changed }
  | .approve entry => { c with approved := Function.update c.approved entry.identity (some entry) }
  | .unapprove id => { c with approved := Function.update c.approved id none }
  | .nullify id => { c with nullified := insert id c.nullified }
  | .clearNullifier id => { c with nullified := c.nullified \ {id} }
  | .insertKey hash key => { c with keys := Function.update c.keys hash (some key) }
  | .removeKey hash => { c with keys := Function.update c.keys hash none }
  | .suggest suggestions => { c with suggested := SuggestedFirewall.contents suggestions }

section Updates

variable {κ ν : Type} [DecidableEq κ]

theorem lookup_insert_eq (m : OrdMap κ ν) (k : κ) (v : ν) :
    (Finmap.insert k v m).lookup = Function.update m.lookup k (some v) := by
  funext k'
  rcases eq_or_ne k' k with rfl | other
  · rw [Finmap.lookup_insert, Function.update_self]
  · rw [Finmap.lookup_insert_of_ne _ other, Function.update_of_ne other]

theorem lookup_erase_eq (m : OrdMap κ ν) (k : κ) :
    (Finmap.erase k m).lookup = Function.update m.lookup k none := by
  funext k'
  rcases eq_or_ne k' k with rfl | other
  · rw [Finmap.lookup_erase, Function.update_self]
  · rw [Finmap.lookup_erase_ne other, Function.update_of_ne other]

variable {key : ν → κ}

theorem get_insert_eq (m : KeyedMap key) (v : ν) :
    (m.insert v).get = Function.update m.get (key v) (some v) := lookup_insert_eq m.map (key v) v

theorem get_erase_eq (m : KeyedMap key) (k : κ) :
    (m.erase k).get = Function.update m.get k none := lookup_erase_eq m.map k

theorem get_modify_eq {m : KeyedMap key} {k : κ} {f : ν → ν} (same : ∀ v, key (f v) = key v) :
    (m.modify k f).get = Function.update m.get k ((m.get k).map f) := by
  funext k'
  rw [KeyedMap.get_modify same, Function.update_apply]

end Updates

theorem GroupBlob.contents_edit (g : GroupBlob) (e : GroupEdit) :
    (g.edit e).contents = g.contents.edit e := by
  cases e with
  | add member | approve entry | insertKey hash key =>
    simp only [edit, contents, Contents.edit, get_insert_eq, lookup_insert_eq]
  | remove id | unapprove id | removeKey hash =>
    simp only [edit, contents, Contents.edit, get_erase_eq, lookup_erase_eq]
  | change id f =>
    simp only [edit, contents, Contents.edit]
    rw [get_modify_eq]
    exact fun _ => rfl
  | nullify id => simp only [edit, contents, Contents.edit, Finset.coe_insert]
  | clearNullifier id => simp only [edit, contents, Contents.edit, Finset.coe_erase]
  | suggest suggestions => rfl

theorem GroupBlob.contents_edits (g : GroupBlob) (edits : List GroupEdit) :
    (edits.foldl GroupBlob.edit g).contents = edits.foldl Contents.edit g.contents := by
  induction edits generalizing g with
  | nil => rfl
  | cons e edits ih => rw [List.foldl_cons, ih, contents_edit, List.foldl_cons]

/-! ## Writing in key order -/

/-- The entries of a map. -/
abbrev Entries (f : Name → Option Name) (l : List (Name × Name)) : Prop :=
  Enumerates (· ≤ ·) Prod.fst (fun e => f e.1 = some e.2) l

/-- The fields list the contents, with strictly ascending keys and nothing else. -/
structure WireBlob.Writes (blob : WireBlob) (c : Contents) : Prop where
  members : Enumerates (· ≤ ·) Member.identity (fun m => c.members m.identity = some m) blob.members
  approved : Enumerates (· ≤ ·) ApprovedEntry.identity (fun a => c.approved a.identity = some a)
    blob.approved
  suggested : Enumerates (· ≤ ·) Prod.fst
    (fun e => ∃ allows denies, c.suggested e.1 = some (allows, denies) ∧ Entries allows e.2.1 ∧
      Entries denies e.2.2) blob.suggestedFirewall
  name : blob.name = c.name
  keys : Enumerates (· ≤ ·) Prod.fst (fun e => c.keys e.1 = some e.2) blob.reusableKeys
  nullifiers : Enumerates (· ≤ ·) id (· ∈ c.nullified) blob.nullifiers

/-! ## Reading back -/

section Read

variable {κ ν : Type} [DecidableEq κ] (r : κ → κ → Prop) [DecidableRel r] [Std.Total r]
  [IsTrans κ r] [Std.Antisymm r]

theorem fromEntries_iter (m : OrdMap κ ν) : fromEntries (OrdMap.iter r m) = m :=
  OrdMap.gather_iter r fun _ _ _ => rfl

variable {key : ν → κ}

theorem map_foldl_insert (values : List ν) (m : KeyedMap key) :
    (values.foldl KeyedMap.insert m).map =
      OrdMap.gather (fun _ v => v) m.map (values.map fun v => (key v, v)) := by
  induction values generalizing m with
  | nil => rfl
  | cons v values ih => exact ih (m.insert v)

/-- Each value of the map stands under its own key, so its values name the entries. -/
theorem map_iter (m : KeyedMap key) :
    (m.iter r).map (fun v => (key v, v)) = OrdMap.iter r m.map := by
  rw [KeyedMap.iter, List.map_map]
  refine (List.map_congr_left fun entry member => ?_).trans (List.map_id _)
  exact congrArg (·, entry.2) (m.keyed _ _ ((OrdMap.mem_iter r).mp member))

theorem fromValues_iter (m : KeyedMap key) : fromValues (m.iter r) = m := by
  apply KeyedMap.map_injective
  rw [fromValues, map_foldl_insert, map_iter]
  exact fromEntries_iter r m.map

theorem enumerates_values (m : KeyedMap key) :
    Enumerates r key (fun v => m.get (key v) = some v) (m.iter r) := by
  have entries := OrdMap.enumerates_iter r m.map
  rw [← map_iter] at entries
  refine ⟨List.pairwise_map.mp entries.ascending, fun v => ?_⟩
  rw [← show _ ↔ m.get (key v) = some v from entries.mem_iff (key v, v), List.mem_map]
  constructor
  · exact fun member => ⟨v, member, rfl⟩
  · rintro ⟨_, member, same⟩
    exact (Prod.mk.inj same).2 ▸ member

end Read

theorem deserialize_serialize (group : GroupBlob) : group.serialize.deserialize = group := by
  have hosts : (Prod.map id (fun (allows, denies) => ⟨fromEntries allows, fromEntries denies⟩) ∘
      Prod.map id HostSuggestions.serialize : Name × HostSuggestions → _) = id := by
    funext ⟨host, allows, denies⟩
    simp only [Function.comp_apply, Prod.map, HostSuggestions.serialize, fromEntries_iter, id]
  simp only [GroupBlob.serialize, WireBlob.deserialize, List.map_map, hosts, List.map_id,
    fromValues_iter, fromEntries_iter, sorted_toFinset]

/-- The fields of a blob list its contents. -/
theorem serialize_writes (g : GroupBlob) : g.serialize.Writes g.contents where
  members := enumerates_values _ g.members
  approved := enumerates_values _ g.approved
  suggested := by
    have hosts := OrdMap.enumerates_iter (· ≤ ·) g.suggestedFirewall
    refine ⟨List.pairwise_map.mpr hosts.ascending, fun e => ?_⟩
    have lists (h : HostSuggestions) :
        Entries h.allows.lookup h.serialize.1 ∧ Entries h.denies.lookup h.serialize.2 :=
      ⟨OrdMap.enumerates_iter _ h.allows, OrdMap.enumerates_iter _ h.denies⟩
    obtain ⟨host, allows, denies⟩ := e
    constructor
    · intro member
      obtain ⟨⟨_, h⟩, held, ⟨⟩⟩ := List.mem_map.mp member
      exact ⟨_, _, congrArg (Option.map _) ((hosts.mem_iff _).mp held), lists h⟩
    · rintro ⟨_, _, held, listed⟩
      obtain ⟨h, there, ⟨⟩⟩ := Option.map_eq_some_iff.mp held
      have same : (allows, denies) = h.serialize :=
        Prod.ext (listed.1.unique _ (lists h).1) (listed.2.unique _ (lists h).2)
      exact List.mem_map.mpr ⟨(host, h), (hosts.mem_iff _).mpr there, congrArg _ same.symm⟩
  name := rfl
  keys := OrdMap.enumerates_iter _ g.reusableKeys
  nullifiers := enumerates_sorted _ g.nullifiers

/-- The contents determine the fields. -/
theorem WireBlob.Writes.unique {blob blob' : WireBlob} {c : Contents} (h : blob.Writes c)
    (h' : blob'.Writes c) : blob = blob' := by
  obtain ⟨members, approved, suggested, name, keys, nullifiers⟩ := blob
  obtain rfl := h.members.unique _ h'.members
  obtain rfl := h.approved.unique _ h'.approved
  obtain rfl := h.suggested.unique _ h'.suggested
  obtain rfl := h.name.trans h'.name.symm
  obtain rfl := h.keys.unique _ h'.keys
  obtain rfl := h.nullifiers.unique _ h'.nullifiers
  rfl

theorem decode_canonicalGroupBytes (rmp : RmpBlob) (group : GroupBlob) :
    decodeGroupBlob rmp (canonicalGroupBytes rmp group) = some group := by
  rw [decodeGroupBlob, canonicalGroupBytes, rmp.fromSlice_toVec, Option.map_some,
    deserialize_serialize]

/-- The codec that the state of a node is stated over, for a hash without collisions. -/
noncomputable def canonicalCodec {Hash : Type} (rmp : RmpBlob) {blake3 : Bytes → Hash}
    (injective : Function.Injective blake3) : GroupCodec Hash where
  groupBlobHash := groupBlobHash rmp blake3
  named hash := (Function.partialInv blake3 hash).bind (decodeGroupBlob rmp)
  named_hash group := by
    rw [groupBlobHash, Function.partialInv_left injective, Option.bind_some,
      decode_canonicalGroupBytes]

/-- The fields of the blob list its contents in strict key order, and nothing else does. So
whatever edits two coordinators made: where these come to the same contents, they write the
same bytes and publish the same hash. The bytes decode to the group they were made of, and
are accepted for their own hash only. -/
theorem group_blob_canonical {Hash : Type} [DecidableEq Hash] (rmp : RmpBlob)
    (blake3 : Bytes → Hash) :
    (∀ group : GroupBlob, ∀ blob, blob.Writes group.contents ↔ blob = group.serialize) ∧
    (∀ (start start' : GroupBlob) (edits edits' : List GroupEdit),
      edits.foldl Contents.edit start.contents = edits'.foldl Contents.edit start'.contents →
        let group := edits.foldl GroupBlob.edit start
        let group' := edits'.foldl GroupBlob.edit start'
        canonicalGroupBytes rmp group = canonicalGroupBytes rmp group' ∧
        groupBlobHash rmp blake3 group = groupBlobHash rmp blake3 group') ∧
    (∀ group, decodeGroupBlob rmp (canonicalGroupBytes rmp group) = some group) ∧
    ∀ bytes expected group, verifyGroupBlob rmp blake3 bytes expected = some group →
      blake3 bytes = expected := by
  refine ⟨fun group blob => ⟨fun h => h.unique (serialize_writes group), ?_⟩, ?_,
    decode_canonicalGroupBytes rmp, ?_⟩
  · rintro rfl
    exact serialize_writes group
  · intro start start' edits edits' same group group'
    have writes := serialize_writes group
    rw [GroupBlob.contents_edits, same, ← GroupBlob.contents_edits] at writes
    have bytes : canonicalGroupBytes rmp group = canonicalGroupBytes rmp group' :=
      congrArg rmp.toVec (writes.unique (serialize_writes group'))
    exact ⟨bytes, congrArg blake3 bytes⟩
  · exact fun bytes expected group accepted => (Option.ite_none_right_eq_some.mp accepted).1

/-! ## An encoding -/

instance countableBitVec {w : Nat} : Countable (BitVec w) :=
  Function.Injective.countable (f := BitVec.toNat) fun _ _ => BitVec.eq_of_toNat_eq

instance countableChar : Countable Char :=
  Function.Injective.countable (f := Char.toNat) fun _ _ same => Char.ext (UInt32.toNat_inj.mp same)

deriving instance Countable for DeviceCert, ExitFamilies, Member, ApprovedEntry, ReusableKey,
  WireBlob

/-- Blobs can be numbered. One is written as that many zeros. -/
noncomputable def numberedRmp : RmpBlob where
  toVec blob := List.replicate ((exists_injective_nat WireBlob).choose blob) 0
  fromSlice bytes := Function.partialInv (exists_injective_nat WireBlob).choose bytes.length
  fromSlice_toVec blob := by
    rw [List.length_replicate, Function.partialInv_left (exists_injective_nat WireBlob).choose_spec]

/-- A member without a name. -/
def unnamed (id : EndpointId) (coordinator : Bool) : Member :=
  ⟨id, coordinator, none, none, none, none, false, .unknown⟩

/-- Two members and a nullified device, in two orders; in the second one a member leaves and
comes back. -/
def firstOrder : List GroupEdit := [.add (unnamed 1 true), .add (unnamed 2 false), .nullify 3]

def secondOrder : List GroupEdit :=
  [.nullify 3, .add (unnamed 2 true), .remove 2, .add (unnamed 2 false), .add (unnamed 1 true)]

def emptyBlob : GroupBlob := ⟨.empty, .empty, ∅, none, ∅, ∅⟩

theorem group_blob_canonical_reordered :
    let group := firstOrder.foldl GroupBlob.edit emptyBlob
    let group' := secondOrder.foldl GroupBlob.edit emptyBlob
    let codec := canonicalCodec numberedRmp Function.injective_id
    group.serialize.members = [unnamed 1 true, unnamed 2 false] ∧
      canonicalGroupBytes numberedRmp group = canonicalGroupBytes numberedRmp group' ∧
      codec.groupBlobHash group = codec.groupBlobHash group' := by
  have same : firstOrder.foldl Contents.edit emptyBlob.contents =
      secondOrder.foldl Contents.edit emptyBlob.contents := by
    have swap := Function.update_comm (show (1 : EndpointId) ≠ 2 by decide)
      (some (unnamed 1 true)) (some (unnamed 2 false)) emptyBlob.contents.members
    simpa [firstOrder, secondOrder, Contents.edit, unnamed] using swap
  exact ⟨by decide +kernel, (group_blob_canonical numberedRmp id).2.1 _ _ _ _ same⟩

end Rayfish
