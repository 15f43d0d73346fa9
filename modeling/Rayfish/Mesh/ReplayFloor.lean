import Rayfish.Mesh.Machine

/-!
# The replay floor of a running network

No step lowers the replay floor, in memory or saved (`step_floor`). Every record
adopted, observed for the held blob or confirmed published lies under it
(`run_seen`), so a later adoption is strictly newer; and a run that may leave the
network on a mesh record has seen a floor (`run_tasks`). `replay_floor` puts the
three together for every step of every run.
-/

namespace Rayfish

open Lib

variable {Hash : Type} [DecidableEq Hash] {codec : GroupCodec Hash} {me : EndpointId}
  {s₀ s s' : Mesh Hash} {a : MeshAct Hash} {out : MeshOut Hash} {h : List (MeshEntry Hash)}

/-- The replay floor in memory. -/
def Mesh.floor (s : Mesh Hash) : Option Nat := s.node.net.lastRecordTimestamp

/-! ## What a step does to the floors -/

theorem advance_floor (outcome : AdvanceOutcome codec me disk t n (progress, n')) :
    FloorLe n.net.lastRecordTimestamp n'.net.lastRecordTimestamp ∧
      SavedFloorLe n.config n'.config := by
  have kept : ∀ {n' : Node Hash}, n.Bookkept n' →
      FloorLe n.net.lastRecordTimestamp n'.net.lastRecordTimestamp ∧
        SavedFloorLe n.config n'.config := by
    intro n' kept
    rw [kept.net.floor]
    exact ⟨.refl _, kept.saved⟩
  cases outcome with
  | stopped _ same | resumed _ _ same | saved _ _ _ same | fetched _ same => exact kept same
  | observed _ _ _ rises _ => exact ⟨rises, .refl _⟩
  | unpaired _ | cleared _ _ | left _ _ => exact kept (.refl n)
  | adopts _ passes same =>
    rw [same.net.floor]
    exact ⟨.of_newer passes.newer, same.saved⟩

/-- No step lowers the floor in memory or the saved one. -/
theorem step_floor (step : meshStep codec me s a out s') :
    FloorLe s.floor s'.floor ∧ SavedFloorLe s.node.config s'.node.config := by
  unfold Mesh.floor
  cases meshStep_cases step with
  | received same _ _ =>
    rw [same]
    exact ⟨.refl _, .refl _⟩
  | advanced _ outcome _ => exact advance_floor outcome
  | edited _ _ same _ =>
    rw [same, Node.writeEdit_floor]
    exact ⟨.refl _, .refl _⟩
  | @committed disk _ _ _ _ ran =>
    have kept := s.node.commitCurrentSnapshot_committed codec disk
    rw [ran] at kept
    rw [kept.floor]
    exact ⟨.refl _, kept.saved⟩
  | signed kept _ =>
    rw [kept.net.floor]
    exact ⟨.refl _, kept.saved⟩
  | @confirmed disk _ packet _ same =>
    obtain ⟨rises, _, saved⟩ := s.node.confirmPublication_floor disk packet.hash packet.timestamp
    rw [same]
    exact ⟨rises, saved⟩

/-! ## What a run has seen -/

section

variable (e : MeshEntry Hash)

/-- The step adopts the blob of a record authored at `ts`. -/
def Adopts (ts : Nat) : Prop :=
  ∃ t, e.out = .advanced t (.done .applied false) ∧ t.record.timestamp = ts

/-- The step observes a record that names the held blob. -/
def Observes (ts : Nat) : Prop :=
  ∃ t floor, e.out = .advanced t (.next (.saveFloor floor)) ∧ t.record.timestamp = ts

/-- The step confirms that a relay took this node's record. -/
def Confirms (ts : Nat) : Prop :=
  ∃ packet, e.out = .confirmed packet ∧ packet.timestamp = ts

def Sees (ts : Nat) : Prop := Adopts e ts ∨ Observes e ts ∨ Confirms e ts

end

/-- What a step sees lies under the floor it leaves. -/
theorem step_sees (step : meshStep codec me s a out s') (sees : Sees ⟨s, a, out, s'⟩ ts) :
    FloorLe (some ts) s'.floor := by
  rcases sees with ⟨t, rfl, rfl⟩ | ⟨t, floor, rfl, rfl⟩ | ⟨packet, rfl, rfl⟩
  · cases meshStep_cases step with
    | advanced _ outcome _ =>
      cases outcome with
      | stopped notApplied _ => exact absurd rfl notApplied
      | adopts _ _ same =>
        unfold Mesh.floor
        rw [same.net.floor]
        exact .refl _
  · cases meshStep_cases step with
    | advanced _ outcome _ =>
      generalize node : s'.node = n' at outcome
      unfold Mesh.floor
      rw [node]
      cases outcome with
      | resumed _ unobserved _ => exact absurd trivial unobserved
      | observed _ _ _ _ under => exact under
      | saved _ _ other _ => exact absurd rfl (other floor)
  · cases meshStep_cases step with
    | @confirmed disk _ _ _ same =>
      unfold Mesh.floor
      rw [same]
      exact (s.node.confirmPublication_floor disk packet.hash packet.timestamp).2.1

/-- Everything seen in a run lies under the floor. -/
theorem run_seen (run : Run (meshStep codec me) s₀ h s) :
    ∀ e ∈ h, ∀ ts, Sees e ts → FloorLe (some ts) s.floor := by
  induction run with
  | nil => intro e member; cases member
  | snoc _ step ih =>
    intro e member ts sees
    rcases mem_snoc_cases member with older | rfl
    · exact (ih e older ts sees).trans (step_floor step).1
    · exact step_sees step sees

/-! ## Apply runs in flight -/

/-- What an apply run knows about the floor in its phase. -/
structure ApplyTask.Sound (me : EndpointId) (floor : Option Nat) (t : ApplyTask Hash) : Prop where
  observed : t.phase.Observed → FloorLe (some t.record.timestamp) floor
  confirmed : ∀ generation data, t.phase = .commit generation data → t.source = .mesh →
    blobRemovesUs data me t.deviceCert = true → floor ≠ none

omit [DecidableEq Hash] in
theorem ApplyTask.Sound.mono {floor floor' : Option Nat} {t : ApplyTask Hash}
    (sound : t.Sound me floor) (rises : FloorLe floor floor') : t.Sound me floor' := by
  refine ⟨fun observed => (sound.observed observed).trans rises,
    fun generation data phase mesh removes unset => ?_⟩
  obtain ⟨f, held⟩ :=
    Option.ne_none_iff_exists'.mp (sound.confirmed generation data phase mesh removes)
  obtain ⟨f', held', _⟩ := rises f held
  rw [unset] at held'
  cases held'

/-- A run stays sound through one of its sections. -/
theorem advance_sound (outcome : AdvanceOutcome codec me disk t n (.next phase, n'))
    (sound : t.Sound me n.net.lastRecordTimestamp) :
    ({ t with phase := phase } : ApplyTask Hash).Sound me n'.net.lastRecordTimestamp := by
  cases outcome with
  | resumed noData unobserved _ =>
    refine ⟨fun observed => absurd observed unobserved, fun generation data same => ?_⟩
    cases show phase = .commit generation data from same
    cases noData
  | observed _ _ _ _ under =>
    exact ⟨fun _ => under, fun generation data same => by cases same⟩
  | saved observed noData _ kept =>
    rw [kept.net.floor]
    refine ⟨fun _ => sound.observed observed, fun generation data same => ?_⟩
    cases show phase = .commit generation data from same
    cases noData
  | fetched _ _ => exact ⟨fun observed => observed.elim, fun generation data same => by cases same⟩
  | cleared _ passes =>
    refine ⟨fun observed => observed.elim, fun generation data same mesh removes unset => ?_⟩
    cases same
    exact passes ⟨mesh, unset, removes⟩

theorem run_tasks (idle : ∀ task, s₀.applies task = none) (run : Run (meshStep codec me) s₀ h s) :
    ∀ task t, s.applies task = some t → t.Sound me s.floor := by
  refine run_applies (P := fun s t => t.Sound me s.floor) idle (fun s t phase => ?_)
    (fun step sound => sound.mono (step_floor step).1)
    (fun outcome sound => advance_sound outcome sound) run
  constructor
  · intro observed
    rw [phase] at observed
    exact observed.elim
  · intro generation data same
    rw [phase] at same
    cases same

/-! ## The replay floor -/

/-- What every step of a running network keeps. -/
structure FloorStep (h : List (MeshEntry Hash)) (e : MeshEntry Hash) : Prop where
  memory : FloorLe e.before.floor e.after.floor
  saved : SavedFloorLe e.before.node.config e.after.node.config
  adopts : ∀ ts, Adopts e ts → ∀ e' ∈ h, ∀ seen, Sees e' seen → seen < ts
  leaves : ∀ t outcome, e.out = .advanced t (.done outcome true) → t.source = .mesh →
    e.before.floor ≠ none

theorem replay_floor (idle : ∀ task, s₀.applies task = none)
    (run : Run (meshStep codec me) s₀ h s) (step : meshStep codec me s a out s') :
    FloorStep h ⟨s, a, out, s'⟩ := by
  obtain ⟨memory, saved⟩ := step_floor step
  refine ⟨memory, saved, fun ts adopts e member seen sees => ?_, fun t outcome left mesh => ?_⟩
  · obtain ⟨t, rfl, rfl⟩ := adopts
    have under := run_seen run e member seen sees
    cases meshStep_cases step with
    | advanced _ outcome _ =>
      cases outcome with
      | stopped notApplied _ => exact absurd rfl notApplied
      | adopts _ passes _ => exact lt_of_newer passes.newer under
  · obtain rfl : out = .advanced t (.done outcome true) := left
    cases meshStep_cases step with
    | @advanced task _ _ _ _ _ running section' =>
      have sound := run_tasks idle run task t running
      generalize s'.node = n' at section'
      cases section' with
      | unpaired observed =>
        obtain ⟨f, held, _⟩ := sound.observed observed _ rfl
        intro unset
        rw [unset] at held
        cases held
      | left phase removes => exact sound.confirmed _ _ phase mesh removes

/-! ## A renewal, then a newer record -/

/-- A peer hands over a renewal of the held blob, and then a newer record. -/
def renewalActs : List (MeshAct GroupBlob) :=
  .receive 0 ⟨soleGroup, 20⟩ .mesh none :: List.replicate 4 (.advance 0 healthyDisk true) ++
    .receive 1 ⟨pairGroup, 30⟩ .mesh none :: List.replicate 6 (.advance 1 healthyDisk true)

theorem replay_floor_renewal :
    ∃ h s out s', Run (meshStep plainCodec 1) (convergedMesh none) h s ∧
      FloorStep h ⟨s, .advance 1 healthyDisk true, out, s'⟩ ∧
      Adopts ⟨s, .advance 1 healthyDisk true, out, s'⟩ 30 ∧ ∃ e ∈ h, Observes e 20 := by
  have run := run_execute (f := fun s a => MeshAct.run plainCodec 1 s a)
    (s := convergedMesh none) renewalActs rfl
  exact ⟨_, _, _, _, run, replay_floor (fun _ => rfl) run rfl, ⟨_, rfl, rfl⟩,
    _, List.mem_of_getElem? (i := 4) rfl, _, _, rfl, rfl⟩

end Rayfish
