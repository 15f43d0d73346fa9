import Rayfish.Mesh.State

/-!
# What saving leaves alone

The functions that move a group hash to disk touch the recovery pointer, its
durability marker and the blob store. `Bookkept` says what they all keep: the group,
the key and the replay floor stay, and the saved floor never falls. `Committed` is
the same for a snapshot commit, which may also converge on the group encoded anew.
-/

namespace Rayfish

variable {Hash : Type}

/-! ## Floors -/

/-- `a` is unset, or `b` is at least as high. -/
def FloorLe (a b : Option Nat) : Prop := ∀ f ∈ a, ∃ f' ∈ b, f ≤ f'

theorem FloorLe.refl (a : Option Nat) : FloorLe a a := fun f hf => ⟨f, hf, le_rfl⟩

theorem FloorLe.trans (ab : FloorLe a b) (bc : FloorLe b c) : FloorLe a c := by
  intro f hf
  obtain ⟨f', hf', le⟩ := ab f hf
  obtain ⟨f'', hf'', le'⟩ := bc f' hf'
  exact ⟨f'', hf'', le.trans le'⟩

theorem FloorLe.max_left (a b : Option Nat) : FloorLe a (max a b) := by
  intro f hf
  cases hf
  cases b with
  | none => exact ⟨f, rfl, le_rfl⟩
  | some g => exact ⟨max f g, rfl, le_max_left f g⟩

theorem FloorLe.max_right (a b : Option Nat) : FloorLe b (max a b) := by
  intro f hf
  cases hf
  cases a with
  | none => exact ⟨f, rfl, le_rfl⟩
  | some g => exact ⟨max g f, rfl, le_max_right g f⟩

/-- A newer record raises the floor. -/
theorem FloorLe.of_newer (h : recordIsNewer ts floor = true) : FloorLe floor (some ts) := by
  intro f hf
  cases hf
  exact ⟨ts, rfl, (of_decide_eq_true h).le⟩

/-- A record that is not newer lies under the floor. -/
theorem le_of_not_newer (h : ¬recordIsNewer ts floor = true) : FloorLe (some ts) floor := by
  intro f hf
  cases hf
  cases floor with
  | none => exact absurd rfl h
  | some seen => exact ⟨seen, rfl, not_lt.mp (of_decide_eq_false (eq_false_of_ne_true h))⟩

/-- Nothing under the floor is newer than it. -/
theorem lt_of_newer (newer : recordIsNewer ts floor = true) (under : FloorLe (some seen) floor) :
    seen < ts := by
  obtain ⟨f, hf, le⟩ := under seen rfl
  cases hf
  exact le.trans_lt (of_decide_eq_true newer)

/-- A published record lies under the floor it raises. -/
theorem NetworkState.raiseRecordFloor_floor (net : NetworkState Hash) (ts : Nat) :
    FloorLe net.lastRecordTimestamp (net.raiseRecordFloor ts).lastRecordTimestamp ∧
      FloorLe (some ts) (net.raiseRecordFloor ts).lastRecordTimestamp := by
  unfold raiseRecordFloor
  cases net.lastRecordTimestamp with
  | none => exact ⟨fun f hf => (by cases hf), .refl _⟩
  | some floor =>
    refine ⟨fun f hf => ?_, fun f hf => ?_⟩
    · cases hf
      exact ⟨_, rfl, le_max_left _ _⟩
    · cases hf
      exact ⟨_, rfl, le_max_right _ _⟩

/-! ## Bookkeeping -/

def SavedFloorLe (c c' : Option (NetworkConfig Hash)) : Prop :=
  ∀ cfg, c = some cfg → ∃ cfg', c' = some cfg' ∧
    FloorLe cfg.lastRecordTimestamp cfg'.lastRecordTimestamp

structure NetworkState.Bookkept (s s' : NetworkState Hash) : Prop where
  group : s'.group = s.group
  converged : s'.convergedHash = s.convergedHash
  hasKey : s'.hasKey = s.hasKey
  floor : s'.lastRecordTimestamp = s.lastRecordTimestamp

structure Node.Bookkept (n n' : Node Hash) : Prop where
  net : n.net.Bookkept n'.net
  saved : SavedFloorLe n.config n'.config

theorem SavedFloorLe.refl (c : Option (NetworkConfig Hash)) : SavedFloorLe c c :=
  fun cfg held => ⟨cfg, held, .refl _⟩

namespace NetworkState.Bookkept

theorem refl (s : NetworkState Hash) : s.Bookkept s := ⟨rfl, rfl, rfl, rfl⟩

theorem trans {s s' s'' : NetworkState Hash} (h : s.Bookkept s') (h' : s'.Bookkept s'') :
    s.Bookkept s'' :=
  ⟨h'.group.trans h.group, h'.converged.trans h.converged, h'.hasKey.trans h.hasKey,
    h'.floor.trans h.floor⟩

variable [DecidableEq Hash] (s : NetworkState Hash)

theorem confirmDurable (hash : Hash) : s.Bookkept (s.confirmCurrentGroupHashDurable hash) := by
  unfold confirmCurrentGroupHashDurable
  split
  · exact ⟨rfl, rfl, rfl, rfl⟩
  · exact refl s

theorem markPending (hash : Hash) (published : Bool) :
    s.Bookkept (s.markGroupHashDurabilityPending hash published) := by
  unfold markGroupHashDurabilityPending
  split
  · exact ⟨rfl, rfl, rfl, rfl⟩
  · exact refl s

end NetworkState.Bookkept

variable {n n' : Node Hash}

namespace Node.Bookkept

theorem refl (n : Node Hash) : n.Bookkept n := ⟨.refl _, .refl _⟩

theorem trans {n'' : Node Hash} (h : n.Bookkept n') (h' : n'.Bookkept n'') : n.Bookkept n'' := by
  refine ⟨h.net.trans h'.net, fun cfg held => ?_⟩
  obtain ⟨cfg', held', le⟩ := h.saved cfg held
  obtain ⟨cfg'', held'', le'⟩ := h'.saved cfg' held'
  exact ⟨cfg'', held'', le.trans le'⟩

theorem withNet {net : NetworkState Hash} (h : n.net.Bookkept net) :
    n.Bookkept { n with net := net } :=
  ⟨h, .refl _⟩

variable (disk : Disk)

theorem updateNetwork
    (raises : ∀ cfg, FloorLe cfg.lastRecordTimestamp (f cfg).lastRecordTimestamp) (n : Node Hash) :
    n.Bookkept (n.updateNetwork disk f).2 := by
  unfold Node.updateNetwork
  split
  · exact refl n
  · next cfg held _ =>
    refine ⟨.refl _, fun old same => ?_⟩
    cases held.symm.trans same
    exact ⟨_, rfl, raises cfg⟩
  · next cfg held _ =>
    refine ⟨.refl _, fun old same => ?_⟩
    cases held.symm.trans same
    exact ⟨_, rfl, raises cfg⟩
  · exact refl n

theorem persistRecordFloor (floor : Nat) (n : Node Hash) :
    n.Bookkept (n.persistRecordFloor disk floor) :=
  updateNetwork disk (fun _ => .max_left _ _) n

variable [DecidableEq Hash]

section

variable (hash : Hash)

theorem markGroupHashPublished (published : Nat) (n : Node Hash) :
    n.Bookkept (n.markGroupHashPublished disk hash published).2 :=
  updateNetwork disk (fun _ => .max_left _ _) n

theorem writeGroupHashPointer (published : Bool) (n : Node Hash) :
    n.Bookkept (n.writeGroupHashPointer disk hash published).2 := by
  unfold Node.writeGroupHashPointer
  dsimp only
  have written := updateNetwork disk
    (f := (·.setPointer hash published n.net.lastRecordTimestamp)) (fun _ => .max_left _ _) n
  split
  · exact written.trans (withNet (.confirmDurable _ _))
  · exact written.trans (withNet (.markPending _ _ _))
  · exact written.trans (withNet (.markPending _ _ _))

theorem ensureStored (n : Node Hash) : n.Bookkept (n.ensureStored disk hash).2 := by
  unfold Node.ensureStored
  split
  · exact refl n
  · split
    · exact ⟨.refl _, .refl _⟩
    · exact refl n

theorem persistGroupHashLocked (published : Bool) (n : Node Hash) :
    n.Bookkept (n.persistGroupHashLocked disk hash published).2 := by
  unfold Node.persistGroupHashLocked
  split
  · exact refl n
  · dsimp only
    refine trans (ensureStored disk hash n) ?_
    split
    · exact writeGroupHashPointer disk _ _ _
    · exact withNet (.markPending _ _ _)

theorem confirmPendingSnapshotDurability (n : Node Hash) :
    n.Bookkept (n.confirmPendingSnapshotDurability disk).2 := by
  unfold Node.confirmPendingSnapshotDurability
  split
  · exact refl n
  · exact persistGroupHashLocked disk _ _ n

theorem persistGroupHashIfNeeded (published : Bool) (n : Node Hash) :
    n.Bookkept (n.persistGroupHashIfNeeded disk hash published).2 := by
  unfold Node.persistGroupHashIfNeeded
  split
  · exact refl n
  · dsimp only
    split
    · exact refl n
    · exact persistGroupHashLocked disk _ _ n

end

theorem preparePublication (n : Node Hash) : n.Bookkept (n.preparePublication disk).2 := by
  unfold Node.preparePublication
  dsimp only
  split
  · exact persistGroupHashLocked disk _ _ n
  · exact refl n

end Node.Bookkept

/-- What a snapshot commit keeps: it may encode the group anew and converge on that. -/
structure Node.Committed (codec : GroupCodec Hash) (n n' : Node Hash) : Prop where
  group : n'.net.group = n.net.group
  converged : n'.net.convergedHash = n.net.convergedHash ∨
    n'.net.convergedHash = some (codec.groupBlobHash n.net.group)
  hasKey : n'.net.hasKey = n.net.hasKey
  floor : n'.net.lastRecordTimestamp = n.net.lastRecordTimestamp
  saved : SavedFloorLe n.config n'.config

theorem Node.Bookkept.committed (kept : n.Bookkept n') : n.Committed codec n' :=
  ⟨kept.net.group, .inl kept.net.converged, kept.net.hasKey, kept.net.floor, kept.saved⟩

theorem Node.commitCurrentSnapshot_committed [DecidableEq Hash] (codec : GroupCodec Hash)
    (disk : Disk) (n : Node Hash) : n.Committed codec (n.commitCurrentSnapshot disk codec).2 := by
  -- bookkeeping on the refreshed state
  have refreshed : ∀ {blobs : Finset Hash} {n' : Node Hash},
      Node.Bookkept ⟨n.net.refreshSnapshot codec, n.config, blobs⟩ n' → n.Committed codec n' :=
    fun kept =>
      ⟨kept.net.group, .inr kept.net.converged, kept.net.hasKey, kept.net.floor, kept.saved⟩
  unfold commitCurrentSnapshot
  split
  · exact (Bookkept.refl n).committed
  · split
    · exact refreshed (.writeGroupHashPointer disk _ _ _)
    · exact refreshed (.withNet (.markPending _ _ _))

/-- A confirmed publication raises the floors and lies under the one in memory. -/
theorem Node.confirmPublication_floor [DecidableEq Hash] (disk : Disk) (hash : Hash) (ts : Nat)
    (n : Node Hash) :
    FloorLe n.net.lastRecordTimestamp
        (n.confirmPublication disk hash ts).2.net.lastRecordTimestamp ∧
      FloorLe (some ts) (n.confirmPublication disk hash ts).2.net.lastRecordTimestamp ∧
      SavedFloorLe n.config (n.confirmPublication disk hash ts).2.config := by
  have kept := Bookkept.markGroupHashPublished disk hash ts
    { n with net := n.net.raiseRecordFloor ts }
  obtain ⟨rises, under⟩ := n.net.raiseRecordFloor_floor ts
  unfold confirmPublication
  rw [kept.net.floor]
  exact ⟨rises, under, kept.saved⟩

theorem Node.confirmPublication_group [DecidableEq Hash] (disk : Disk) (hash : Hash) (ts : Nat)
    (n : Node Hash) : (n.confirmPublication disk hash ts).2.net.group = n.net.group :=
  (Bookkept.markGroupHashPublished disk hash ts _).net.group

/-- A pointer write that reports success has written the pointer. -/
theorem Node.writeGroupHashPointer_saved [DecidableEq Hash] {disk : Disk} {hash : Hash}
    {published : Bool} (h : n.writeGroupHashPointer disk hash published = (true, n')) :
    ∃ cfg, n'.config = some cfg ∧ cfg.lastGroupHash = some hash := by
  unfold writeGroupHashPointer updateNetwork at h
  dsimp only at h
  split at h
  · next saved =>
    cases h
    split at saved
    · cases saved
    · exact ⟨_, rfl, rfl⟩
    · cases saved
    · cases saved
  · cases h
  · cases h

/-- A commit that reports success saved the live group and converged on it. -/
theorem Node.commitCurrentSnapshot_saved [DecidableEq Hash] {disk : Disk} {codec : GroupCodec Hash}
    (h : n.commitCurrentSnapshot disk codec = (true, n')) :
    (∃ cfg, n'.config = some cfg ∧ cfg.lastGroupHash = some (codec.groupBlobHash n.net.group)) ∧
      n'.net.convergedHash = some (codec.groupBlobHash n.net.group) := by
  unfold commitCurrentSnapshot at h
  split at h
  · cases h
  · split at h
    · obtain rfl : _ = n' := congrArg Prod.snd h
      exact ⟨writeGroupHashPointer_saved h,
        (Bookkept.writeGroupHashPointer disk _ false _).net.converged⟩
    · cases h

end Rayfish
