import Rayfish.Lib.Run
import Rayfish.Mesh.Reconverge
import Rayfish.Mesh.RosterEdit
import Mathlib.Logic.Function.Basic

/-!
# One network of one node as a machine

Apply runs, commands that edit the roster and the publisher, interleaved at their
lock sections. Tasks are numbered. What a step answers says what it did: the task
that advanced and how far, the edit written or committed, the record confirmed.
-/

namespace Rayfish

open Lib

variable {Hash : Type}

/-- A command that has written its edit and owes the snapshot commit, or that has to
take a created key back. -/
inductive EditTask where
  | written (edit : RosterEdit)
  | withdrawing (hash : Name)
  deriving DecidableEq

structure Mesh (Hash : Type) where
  node : Node Hash
  applies : Nat → Option (ApplyTask Hash)
  commands : Nat → Option EditTask
  /-- Records signed and on their way to the relay. -/
  packets : Nat → Option (SignedGroupRecord Hash)

inductive MeshAct (Hash : Type) where
  | receive (task : Nat) (record : SignedGroupRecord Hash) (source : RecordSource)
      (deviceCert : Option DeviceCert)
  | advance (task : Nat) (disk : Disk) (served : Bool)
  /-- The write-lock section of an edit. -/
  | write (task : Nat) (edit : RosterEdit)
  /-- `update_snapshot_and_publish`. -/
  | commit (task : Nat) (disk : Disk)
  | sign (task : Nat) (timestamp : Nat) (disk : Disk)
  /-- The relay took the record. -/
  | confirm (task : Nat) (disk : Disk)

inductive MeshOut (Hash : Type) where
  | received
  | advanced (task : ApplyTask Hash) (progress : ApplyProgress Hash)
  | edited (edit : RosterEdit)
  | committed (edit : RosterEdit) (saved : Bool)
  | signed (packet : Option (SignedGroupRecord Hash))
  | confirmed (packet : SignedGroupRecord Hash)

/-- The task after a section, unless it is done. -/
def ApplyProgress.resume (t : ApplyTask Hash) : ApplyProgress Hash → Option (ApplyTask Hash)
  | .next phase => some { t with phase := phase }
  | .done _ _ => none

/-- What a command must have done before it writes this edit. -/
def RosterEdit.follows : RosterEdit → Option EditTask
  | .withdrawReusable hash => some (.withdrawing hash)
  | _ => none

/-- A created key that could not be saved is taken back; every other edit stays. -/
def RosterEdit.afterCommit : RosterEdit → Bool → Option EditTask
  | .createReusable hash _, false => some (.withdrawing hash)
  | _, _ => none

section

variable (codec : GroupCodec Hash)

/-- The write-lock section of an edit that makes the group `group`. -/
def Node.writeEdit (n : Node Hash) (edit : RosterEdit) (group : GroupBlob) : Node Hash :=
  let net := { n.net with group := group }
  { n with net := if edit.refreshes then net.refreshSnapshot codec else net }

/-- An edit leaves the floor alone. -/
theorem Node.writeEdit_floor (n : Node Hash) (edit : RosterEdit) (group : GroupBlob) :
    (n.writeEdit codec edit group).net.lastRecordTimestamp = n.net.lastRecordTimestamp := by
  unfold writeEdit
  split
  · rfl
  · rfl

theorem Node.writeEdit_group (n : Node Hash) (edit : RosterEdit)
    (group : GroupBlob) : (n.writeEdit codec edit group).net.group = group := by
  unfold writeEdit
  split
  · rfl
  · rfl

end

variable [DecidableEq Hash]

def MeshAct.run (codec : GroupCodec Hash) (me : EndpointId) (s : Mesh Hash) :
    MeshAct Hash → Option (MeshOut Hash × Mesh Hash)
  | .receive task record source deviceCert =>
    if s.applies task = none then
      some (.received, { s with
        applies := Function.update s.applies task
          (some ⟨record, source, deviceCert, .confirmDurability⟩) })
    else none
  | .advance task disk served =>
    (s.applies task).map fun t =>
      let (progress, node) := t.advance codec me disk served s.node
      (.advanced t progress, { s with
        node := node
        applies := Function.update s.applies task (progress.resume t) })
  | .write task edit =>
    if s.node.net.hasKey = true ∧ s.commands task = edit.follows then
      (edit.apply s.node.net.group).map fun group =>
        (.edited edit, { s with
          node := s.node.writeEdit codec edit group
          commands := Function.update s.commands task (some (.written edit)) })
    else none
  | .commit task disk =>
    match s.commands task with
    | some (.written edit) =>
      let (saved, node) := s.node.commitCurrentSnapshot disk codec
      some (.committed edit saved, { s with
        node := node
        commands := Function.update s.commands task (edit.afterCommit saved) })
    | _ => none
  | .sign task timestamp disk =>
    if s.packets task = none then
      let (prepared, node) := s.node.preparePublication disk
      let packet := prepared.map fun hash => ⟨hash, timestamp⟩
      some (.signed packet, { s with
        node := node
        packets := Function.update s.packets task packet })
    else none
  | .confirm task disk =>
    (s.packets task).map fun packet =>
      let (_, node) := s.node.confirmPublication disk packet.hash packet.timestamp
      (.confirmed packet, { s with
        node := node
        packets := Function.update s.packets task none })

def meshStep (codec : GroupCodec Hash) (me : EndpointId) :
    StepRel (Mesh Hash) (MeshAct Hash) (MeshOut Hash) := fun s a out s' =>
  a.run codec me s = some (out, s')

abbrev MeshEntry (Hash : Type) := Entry (Mesh Hash) (MeshAct Hash) (MeshOut Hash)

/-- What a step does to the node and its apply runs. -/
inductive MeshChange (codec : GroupCodec Hash) (me : EndpointId) (s : Mesh Hash) :
    MeshAct Hash → MeshOut Hash → Mesh Hash → Prop where
  | received :
      s'.node = s.node → t.phase = .confirmDurability →
      s'.applies = Function.update s.applies task (some t) → MeshChange codec me s a .received s'
  | advanced : s.applies task = some t →
      AdvanceOutcome codec me disk t s.node (progress, s'.node) →
      s'.applies = Function.update s.applies task (progress.resume t) →
      MeshChange codec me s (.advance task disk served) (.advanced t progress) s'
  | edited :
      s.node.net.hasKey = true → edit.apply s.node.net.group = some group →
      s'.node = s.node.writeEdit codec edit group → s'.applies = s.applies →
      MeshChange codec me s a (.edited edit) s'
  | committed : s.node.commitCurrentSnapshot disk codec = (saved, s'.node) →
      s'.applies = s.applies → MeshChange codec me s a (.committed edit saved) s'
  | signed :
      s.node.Bookkept s'.node → s'.applies = s.applies →
      MeshChange codec me s a (.signed packet) s'
  | confirmed :
      s'.node = (s.node.confirmPublication disk packet.hash packet.timestamp).2 →
      s'.applies = s.applies → MeshChange codec me s a (.confirmed packet) s'

theorem meshStep_cases {codec : GroupCodec Hash} {me : EndpointId} {s s' : Mesh Hash}
    {a : MeshAct Hash} {out : MeshOut Hash} (step : meshStep codec me s a out s') :
    MeshChange codec me s a out s' := by
  unfold meshStep MeshAct.run at step
  split at step
  · cases (Option.ite_none_right_eq_some.1 step).2
    exact .received rfl rfl rfl
  · obtain ⟨t, held, ran⟩ := Option.map_eq_some_iff.mp step
    cases ran
    exact .advanced held (advance_cases codec me _ _ t s.node) rfl
  · split at step
    · next ready =>
      obtain ⟨group, applied, ran⟩ := Option.map_eq_some_iff.mp step
      cases ran
      exact .edited ready.1 applied rfl rfl
    · cases step
  · split at step
    · cases step
      exact .committed rfl rfl
    · cases step
  · cases (Option.ite_none_right_eq_some.1 step).2
    exact .signed (.preparePublication _ s.node) rfl
  · obtain ⟨packet, _, ran⟩ := Option.map_eq_some_iff.mp step
    cases ran
    exact .confirmed rfl rfl

/-- A property of every apply run in flight: runs start with it, their own sections
keep it, and so does every step. -/
theorem run_applies {codec : GroupCodec Hash} {me : EndpointId} {s₀ s : Mesh Hash}
    {h : List (MeshEntry Hash)} {P : Mesh Hash → ApplyTask Hash → Prop}
    (idle : ∀ task, s₀.applies task = none)
    (start : ∀ s t, t.phase = .confirmDurability → P s t)
    (keep : ∀ {s s' a out t}, meshStep codec me s a out s' → P s t → P s' t)
    (next : ∀ {s s' disk t phase}, AdvanceOutcome codec me disk t s.node (.next phase, s'.node) →
      P s t → P s' { t with phase := phase })
    (run : Run (meshStep codec me) s₀ h s) : ∀ task t, s.applies task = some t → P s t := by
  induction run with
  | nil =>
    intro task t held
    rw [idle task] at held
    cases held
  | @snoc h s s' a out _ step ih =>
    intro task t held
    have older : s.applies task = some t → P s' t := fun held => keep step (ih task t held)
    cases meshStep_cases step with
    | received _ phase applies =>
      rw [applies] at held
      rcases update_cases held with ⟨⟨⟩⟩ | held
      · exact start s' _ phase
      · exact older held
    | @advanced task' t' _ progress _ _ running outcome applies =>
      rw [applies] at held
      rcases update_cases held with held | held
      · cases progress with
        | next phase =>
          cases held
          exact next outcome (ih task' t' running)
        | done _ _ => cases held
      · exact older held
    | edited _ _ _ applies | committed _ applies | signed _ applies | confirmed _ applies =>
      exact older (applies ▸ held)

/-! ## A network to run -/

/-- Blobs that are their own hash. -/
def plainCodec : GroupCodec GroupBlob := ⟨fun group => group, some, fun _ => rfl⟩

def healthyDisk : Disk := ⟨true, none, true, true⟩

def emptyGroup : GroupBlob := ⟨.empty, .empty, ∅, none, ∅, ∅⟩

def memberOf (id : EndpointId) (hostname : Name) : Member where
  identity := id
  isCoordinator := false
  hostname := some hostname
  userIdentity := none
  deviceCert := none
  lastSeen := none
  exitNode := false
  exitFamilies := .unknown

def soleGroup : GroupBlob := { emptyGroup with members := KeyedMap.empty.insert (memberOf 1 ['a']) }

def pairGroup : GroupBlob :=
  { soleGroup with members := soleGroup.members.insert (memberOf 2 ['b']) }

/-- Node 1, converged on a published record, with nothing in flight. -/
def convergedMesh (floor : Option Nat) : Mesh GroupBlob where
  node :=
    { net := ⟨soleGroup, some soleGroup, false, some soleGroup, none, true, floor⟩
      config := some ⟨none, some soleGroup, true, floor⟩
      blobs := {soleGroup} }
  applies := fun _ => none
  commands := fun _ => none
  packets := fun _ => none

end Rayfish
