import Rayfish.Mesh.Durability

/-!
# Applying a signed record

`apply_group_record_from` (`reconverge.rs`), cut where it takes or leaves a lock: an
apply is a task that stops between its sections, and `ApplyPhase` says where.
`advance_cases` lists everything one section can do.
-/

namespace Rayfish

open Lib

variable {Hash : Type} [DecidableEq Hash]

inductive RecordSource where
  | relay
  | mesh
  deriving DecidableEq

/-- A verified network-key-signed record. -/
structure SignedGroupRecord (Hash : Type) where
  hash : Hash
  timestamp : Nat
  deriving DecidableEq

inductive ReconvergeOutcome where
  | applied
  | current
  | stale
  | unconfirmed
  | unfetched
  | superseded
  | departed
  deriving DecidableEq

/-- The section an apply run enters next. -/
inductive ApplyPhase (Hash : Type) where
  | confirmDurability
  | checkAuthored
  | readGeneration
  | observe (floor : Option Nat) (generation : Hash)
  | saveFloor (floor : Option Nat)
  | savePointer
  | review
  | fetch (generation : Hash)
  | checkRemoval (generation : Hash) (data : GroupBlob)
  | commit (generation : Hash) (data : GroupBlob)

structure ApplyTask (Hash : Type) where
  record : SignedGroupRecord Hash
  source : RecordSource
  deviceCert : Option DeviceCert
  phase : ApplyPhase Hash

/-- Where a section leaves an apply run; `leaves` when it tears this node out of the
network. -/
inductive ApplyProgress (Hash : Type) where
  | next (phase : ApplyPhase Hash)
  | done (outcome : ReconvergeOutcome) (leaves : Bool)

section

variable (codec : GroupCodec Hash)

/-- `commit_group_blob`, the section under `snapshot_commit`. -/
def commitGroupBlob (me : EndpointId) (disk : Disk)
    (deviceCert : Option DeviceCert) (record : SignedGroupRecord Hash) (generation : Hash)
    (data : GroupBlob) (n : Node Hash) : ApplyProgress Hash × Node Hash :=
  if n.net.unconfirmedDurableHash.isSome then (.done .superseded false, n)
  else if (n.pendingAuthoredGroupHash disk).any (· ≠ record.hash) then (.done .superseded false, n)
  else if n.net.destroyed then (.done .departed false, n)
  else if codec.groupBlobHash n.net.group ≠ generation then (.done .superseded false, n)
  else if recordIsNewer record.timestamp n.net.lastRecordTimestamp = false then
    (.done .superseded false, n)
  else if (data.nullifiedCert deviceCert).isSome then (.done .departed true, n)
  else if data.lists me = false then (.done .departed true, n)
  else
    let net := n.net.adoptBlob codec data record.hash
    let n := { n with net := { net with lastRecordTimestamp := some record.timestamp } }
    (.done .applied false, (n.persistGroupHashLocked disk record.hash true).2)

/-- One section of `apply_group_record_from`. `served` says whether some source has
the blob's bytes. -/
def ApplyTask.advance (me : EndpointId) (disk : Disk) (served : Bool)
    (t : ApplyTask Hash) (n : Node Hash) : ApplyProgress Hash × Node Hash :=
  match t.phase with
  | .confirmDurability =>
    let (durable, n) := n.confirmPendingSnapshotDurability disk
    (if durable then .next .checkAuthored else .done .superseded false, n)
  | .checkAuthored =>
    (if (n.pendingAuthoredGroupHash disk).any (· ≠ t.record.hash) then .done .superseded false
      else .next .readGeneration, n)
  | .readGeneration =>
    (.next (.observe n.net.lastRecordTimestamp (codec.groupBlobHash n.net.group)), n)
  | .observe floor generation =>
    let (held, net) := n.net.observeCurrentRecord t.record.hash t.record.timestamp
    (if held then .next (.saveFloor floor)
      else if recordIsNewer t.record.timestamp floor then .next (.fetch generation)
      else .done .stale false, { n with net := net })
  | .saveFloor floor =>
    (.next .savePointer, if recordIsNewer t.record.timestamp floor then
      n.persistRecordFloor disk t.record.timestamp else n)
  | .savePointer => (.next .review, (n.persistGroupHashIfNeeded disk t.record.hash true).2)
  | .review =>
    (if (n.net.group.nullifiedCert t.deviceCert).isSome then .done .departed true
      else .done .current false, n)
  | .fetch generation =>
    match codec.named t.record.hash with
    | some data =>
      if served ∧ disk.blobWrites then
        (.next (.checkRemoval generation data), { n with blobs := insert t.record.hash n.blobs })
      else (.done .unfetched false, n)
    | none => (.done .unfetched false, n)
  | .checkRemoval generation data =>
    -- without a floor a peer's record may predate this node
    (if t.source = .mesh ∧ n.net.lastRecordTimestamp = none ∧
        blobRemovesUs data me t.deviceCert = true then .done .unconfirmed false
      else .next (.commit generation data), n)
  | .commit generation data => commitGroupBlob codec me disk t.deviceCert t.record generation data n

/-! ## What one section does -/

/-- The blob a run holds in this phase, if it has fetched one. -/
def ApplyPhase.data : ApplyPhase Hash → Option GroupBlob
  | .checkRemoval _ data | .commit _ data => some data
  | _ => none

/-- The record has been observed for the held blob. -/
def ApplyPhase.Observed : ApplyPhase Hash → Prop
  | .saveFloor _ | .savePointer | .review => True
  | _ => False

/-- The node after `data` has been adopted, before the pointer is written. -/
def adopted (n : Node Hash) (record : SignedGroupRecord Hash) (data : GroupBlob) : Node Hash :=
  { n with
    net := { n.net.adoptBlob codec data record.hash with
      lastRecordTimestamp := some record.timestamp } }

end

/-- The checks of `commit_group_blob` let the fetched blob through. -/
structure ApplyTask.Passes (codec : GroupCodec Hash) (me : EndpointId) (disk : Disk)
    (t : ApplyTask Hash) (generation : Hash) (data : GroupBlob) (n : Node Hash) : Prop where
  durable : n.net.unconfirmedDurableHash = none
  authored : ∀ pending ∈ n.pendingAuthoredGroupHash disk, pending = t.record.hash
  live : n.net.destroyed = false
  unchanged : codec.groupBlobHash n.net.group = generation
  newer : recordIsNewer t.record.timestamp n.net.lastRecordTimestamp = true
  stays : blobRemovesUs data me t.deviceCert = false

/-- What a section of an apply run does. -/
inductive AdvanceOutcome (codec : GroupCodec Hash) (me : EndpointId) (disk : Disk)
    (t : ApplyTask Hash)
    (n : Node Hash) : ApplyProgress Hash × Node Hash → Prop where
  | stopped : outcome ≠ .applied →
      n.Bookkept n' → AdvanceOutcome codec me disk t n (.done outcome false, n')
  /-- On to a phase in which nothing has been fetched or observed. -/
  | resumed : phase.data = none → ¬phase.Observed →
      n.Bookkept n' → AdvanceOutcome codec me disk t n (.next phase, n')
  | observed :
      n.net.convergedHash = some t.record.hash → net.group = n.net.group →
      net.hasKey = n.net.hasKey → FloorLe n.net.lastRecordTimestamp net.lastRecordTimestamp →
      FloorLe (some t.record.timestamp) net.lastRecordTimestamp →
      AdvanceOutcome codec me disk t n (.next (.saveFloor floor), { n with net := net })
  | saved : t.phase.Observed → phase.data = none →
      (∀ floor, phase ≠ .saveFloor floor) → n.Bookkept n' →
      AdvanceOutcome codec me disk t n (.next phase, n')
  | unpaired : t.phase.Observed → AdvanceOutcome codec me disk t n (.done .departed true, n)
  | fetched :
      codec.named t.record.hash = some data → n.Bookkept n' →
      AdvanceOutcome codec me disk t n (.next (.checkRemoval generation data), n')
  | cleared : t.phase = .checkRemoval generation data →
      ¬(t.source = .mesh ∧ n.net.lastRecordTimestamp = none ∧
        blobRemovesUs data me t.deviceCert = true) →
      AdvanceOutcome codec me disk t n (.next (.commit generation data), n)
  | left : t.phase = .commit generation data →
      blobRemovesUs data me t.deviceCert = true →
      AdvanceOutcome codec me disk t n (.done .departed true, n)
  | adopts :
      t.phase = .commit generation data → t.Passes codec me disk generation data n →
      (adopted codec n t.record data).Bookkept n' →
      AdvanceOutcome codec me disk t n (.done .applied false, n')

theorem commitGroupBlob_cases (codec : GroupCodec Hash) (me : EndpointId) (disk : Disk)
    (n : Node Hash) (phase : t.phase = .commit generation data) :
    AdvanceOutcome codec me disk t n
      (commitGroupBlob codec me disk t.deviceCert t.record generation data n) := by
  have stop : ∀ {outcome}, outcome ≠ ReconvergeOutcome.applied →
      AdvanceOutcome codec me disk t n (.done outcome false, n) := fun h => .stopped h (.refl n)
  unfold commitGroupBlob
  split
  · exact stop (by decide)
  next durable =>
  split
  · exact stop (by decide)
  next authored =>
  split
  · exact stop (by decide)
  next live =>
  split
  · exact stop (by decide)
  next unchanged =>
  split
  · exact stop (by decide)
  next newer =>
  split
  · next nullified => exact .left phase (by simp [blobRemovesUs, nullified])
  next paired =>
  split
  · next unlisted => exact .left phase (by simp [blobRemovesUs, unlisted])
  next listed =>
  refine .adopts phase ⟨by simpa using durable, fun pending held => ?_,
    by simpa using live, by simpa using unchanged, by simpa using newer, ?_⟩
    (.persistGroupHashLocked disk _ _ _)
  · rw [Option.mem_def.mp held] at authored
    simpa using authored
  · simp [blobRemovesUs, Bool.not_eq_true _ ▸ paired, listed]

/-- A blob that passes every check is adopted. -/
theorem commitGroupBlob_passes {codec : GroupCodec Hash} {me : EndpointId} {disk : Disk}
    {t : ApplyTask Hash} {generation : Hash} {data : GroupBlob} {n : Node Hash}
    (passes : t.Passes codec me disk generation data n) :
    ∃ n', commitGroupBlob codec me disk t.deviceCert t.record generation data n =
        (.done .applied false, n') ∧ n'.net.group = data := by
  obtain ⟨durable, authored, live, unchanged, newer, stays⟩ := passes
  have settled : (n.pendingAuthoredGroupHash disk).any (· ≠ t.record.hash) = false := by
    cases held : n.pendingAuthoredGroupHash disk with
    | none => rfl
    | some pending => simp [authored pending held]
  obtain ⟨listed, paired⟩ :
      data.lists me = true ∧ (data.nullifiedCert t.deviceCert).isSome = false := by
    simpa [blobRemovesUs] using stays
  unfold commitGroupBlob
  rw [if_neg (by simp [durable]), if_neg (by rw [settled]; exact Bool.false_ne_true),
    if_neg (by simp [live]), if_neg (not_not_intro unchanged), if_neg (by simp [newer]),
    if_neg (by simp [paired]), if_neg (by simp [listed])]
  exact ⟨_, rfl, (Node.Bookkept.persistGroupHashLocked disk _ _ _).net.group⟩

theorem observeCurrentRecord_cases (s : NetworkState Hash) (hash : Hash) (ts : Nat) :
    (s.observeCurrentRecord hash ts = (false, s)) ∨
      ∃ net, s.observeCurrentRecord hash ts = (true, net) ∧ s.convergedHash = some hash ∧
        net.group = s.group ∧ net.hasKey = s.hasKey ∧
        FloorLe s.lastRecordTimestamp net.lastRecordTimestamp ∧
        FloorLe (some ts) net.lastRecordTimestamp := by
  have held : ¬s.needsReconverge hash = true → s.convergedHash = some hash := by
    unfold NetworkState.needsReconverge trustedReconvergeHash
    split
    · next same => exact fun _ => same
    · simp
  unfold NetworkState.observeCurrentRecord
  split
  · exact .inl rfl
  next current =>
  split
  · next newer => exact .inr ⟨_, rfl, held current, rfl, rfl, .of_newer newer, .refl _⟩
  · next older => exact .inr ⟨_, rfl, held current, rfl, rfl, .refl _, le_of_not_newer older⟩

theorem advance_cases (codec : GroupCodec Hash) (me : EndpointId) (disk : Disk) (served : Bool)
    (t : ApplyTask Hash) (n : Node Hash) :
    AdvanceOutcome codec me disk t n (t.advance codec me disk served n) := by
  unfold ApplyTask.advance
  split
  · dsimp only
    have kept := Node.Bookkept.confirmPendingSnapshotDurability disk n
    split
    · exact .resumed rfl id kept
    · exact .stopped (by decide) kept
  · split
    · exact .stopped (by decide) (.refl n)
    · exact .resumed rfl id (.refl n)
  · exact .resumed rfl id (.refl n)
  · next floor generation _ =>
    rcases observeCurrentRecord_cases n.net t.record.hash t.record.timestamp with
      other | ⟨net, held, converged, group, hasKey, rises, under⟩
    · rw [other]
      dsimp only
      rw [if_neg Bool.false_ne_true]
      split
      · exact .resumed rfl id (.refl n)
      · exact .stopped (by decide) (.refl n)
    · rw [held]
      exact .observed converged group hasKey rises under
  · next floor phase =>
    refine .saved (by rw [phase]; trivial) rfl (fun _ => by simp) ?_
    split
    · exact .persistRecordFloor disk _ n
    · exact .refl n
  · next phase =>
    exact .saved (by rw [phase]; trivial) rfl (fun _ => by simp)
      (.persistGroupHashIfNeeded disk _ _ n)
  · next phase =>
    split
    · exact .unpaired (by rw [phase]; trivial)
    · exact .stopped (by decide) (.refl n)
  · split
    · next data named =>
      split
      · exact .fetched named ⟨.refl _, .refl _⟩
      · exact .stopped (by decide) (.refl n)
    · exact .stopped (by decide) (.refl n)
  · next generation data phase =>
    split
    · exact .stopped (by decide) (.refl n)
    · next passes => exact .cleared phase passes
  · next generation data phase => exact commitGroupBlob_cases codec me disk n phase

end Rayfish
