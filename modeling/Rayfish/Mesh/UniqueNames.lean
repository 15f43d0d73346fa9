import Rayfish.Mesh.AdmissionSteps
import Rayfish.Mesh.Machine

/-!
# Two members with one name

An admission settles its name when it is validated and takes its seat in a later
section that does not look at the name again. Two admissions validated side by side
both get the name they ask for, an invite-bound one included
(`bound_name_held_twice`). `unique_names_iff`: a run keeps the hostnames of every live
and every signed roster distinct exactly when each seat is taken under a name that is
free at that moment. An admission in one go would always be (`seat_at_once`), and renames
need no condition: they choose and write in one section.
-/

namespace Rayfish

open Lib

variable {Hash : Type} {codec : GroupCodec Hash} {me : EndpointId}

/-! ## Rosters -/

/-- No two members have the same hostname. -/
def DistinctHostnames (members : MemberList) : Prop :=
  ∀ i j a b name, members.get i = some a → members.get j = some b →
    a.hostname = some name → b.hostname = some name → i = j

/-- Nobody else holds the member's name. -/
def Member.FreeIn (m : Member) (members : MemberList) : Prop :=
  ∀ name ∈ m.hostname, name ∉ takenHostnames members m.identity

instance (m : Member) (members : MemberList) : Decidable (m.FreeIn members) :=
  inferInstanceAs (Decidable (∀ name ∈ m.hostname, _))

variable {members : MemberList}

theorem mem_takenHostnames :
    name ∈ takenHostnames members except ↔
      ∃ i m, members.get i = some m ∧ i ≠ except ∧ m.hostname = some name := by
  simp only [takenHostnames, Multiset.mem_filterMap, Multiset.mem_filter, KeyedMap.mem_values]
  constructor
  · rintro ⟨m, ⟨held, other⟩, named⟩
    exact ⟨m.identity, m, held, other, named⟩
  · rintro ⟨i, m, held, other, named⟩
    cases KeyedMap.key_get held
    exact ⟨m, ⟨held, other⟩, named⟩

namespace DistinctHostnames

theorem congr (distinct : DistinctHostnames members) (same : ∀ i, members'.get i = members.get i) :
    DistinctHostnames members' := by
  intro i j a b name held held'
  rw [same] at held held'
  exact distinct i j a b name held held'

/-- A seat under a free name keeps the names distinct. -/
theorem insert (distinct : DistinctHostnames members) (free : m.FreeIn members) :
    DistinctHostnames (members.insert m) := by
  have unheld : ∀ j b name, j ≠ m.identity → members.get j = some b → m.hostname = some name →
      b.hostname ≠ some name := fun j b name other held named holds =>
    free name named (mem_takenHostnames.mpr ⟨j, b, held, other, holds⟩)
  intro i j a b name held held' named named'
  rw [KeyedMap.get_insert] at held held'
  split at held
  · next own =>
    split at held'
    · next own' => rw [own, own']
    · next other =>
      cases held
      exact absurd named' (unheld j b name other held' named)
  · next other =>
    split at held'
    · cases held'
      exact absurd named (unheld i a name other held named')
    · exact distinct i j a b name held held' named named'

/-- A seat that leaves the names distinct was taken under a free name. -/
theorem freeIn (distinct : DistinctHostnames (members.insert m)) : m.FreeIn members := by
  intro name named taken
  obtain ⟨j, b, held, other, holds⟩ := mem_takenHostnames.mp taken
  refine other (distinct j m.identity b m name ?_ ?_ holds named)
  · rw [KeyedMap.get_insert, if_neg other, held]
  · rw [KeyedMap.get_insert, if_pos rfl]

end DistinctHostnames

/-- The name a hello settles on is held by nobody else: it avoids the taken ones, or
it is the member's own. -/
theorem hello_name_free {id : EndpointId} {member : Member} {claim : Option Name} {name : Name}
    (distinct : DistinctHostnames members) (held : members.get id = some member) (settled :
      ((claim.map fun desired => resolveCollision desired (takenHostnames members id)).orElse
        fun _ => member.hostname) = some name) :
    name ∉ takenHostnames members id := by
  cases claim with
  | none =>
    intro taken
    obtain ⟨j, other, heldToo, differs, named⟩ := mem_takenHostnames.mp taken
    exact differs (distinct j id other member name heldToo held named settled)
  | some desired =>
    cases settled
    exact resolveCollision_free desired _

/-! ## The generation a node is on -/

/-- The live roster and the one the node is converged on have distinct names. -/
def Node.NamesDistinct (codec : GroupCodec Hash) (n : Node Hash) : Prop :=
  DistinctHostnames n.net.group.members ∧
    ∀ hash ∈ n.net.convergedHash, ∀ group ∈ codec.named hash, DistinctHostnames group.members

/-- A node that has just encoded its group is converged on it. -/
theorem Node.NamesDistinct.of_converged {n : Node Hash}
    (distinct : DistinctHostnames n.net.group.members)
    (converged : n.net.convergedHash = some (codec.groupBlobHash n.net.group)) :
    n.NamesDistinct codec := by
  refine ⟨distinct, fun hash held group named => ?_⟩
  rw [converged] at held
  cases held
  rw [codec.named_hash] at named
  cases named
  exact distinct

theorem Node.NamesDistinct.of_committed {n n' : Node Hash} (names : n.NamesDistinct codec)
    (same : n.Committed codec n') : n'.NamesDistinct codec := by
  have distinct : DistinctHostnames n'.net.group.members := same.group ▸ names.1
  rcases same.converged with kept | encoded
  · exact ⟨distinct, fun hash held => names.2 hash (kept ▸ held)⟩
  · exact .of_converged distinct (same.group ▸ encoded)

/-! ## What a commit in progress knows -/

/-- While it is seated, the roster is a distinct one with the seat on top; after the
rollback the seat would still fit. -/
def SeatPhase.Sound (members : MemberList) : SeatPhase → Prop
  | .seated seat | .failed seat =>
    ∃ before, DistinctHostnames before ∧ seat.displaced = before.get seat.tentative.identity ∧
      members = before.insert seat.tentative
  | .rolledBack seat | .retaining seat => DistinctHostnames (members.insert seat.tentative)
  | .retained _ => True

namespace Desk

/-- Names are distinct, and only the holder of the lock is in the middle of a commit. -/
structure Inv (codec : GroupCodec Hash) (s : Desk Hash) : Prop where
  names : s.node.NamesDistinct codec
  holder : ∀ i phase, s.tasks i = some (.committing phase) → s.lock = some i
  sound : ∀ i phase, s.tasks i = some (.committing phase) → phase.Sound s.members

namespace Inv

variable {s s' : Desk Hash}

/-- A section that leaves the members, the lock and the commits alone. -/
theorem of_same (inv : s.Inv codec) (names : s'.node.NamesDistinct codec)
    (members : s'.members = s.members) (lock : s'.lock = s.lock)
    (tasks : ∀ i phase, s'.tasks i = some (.committing phase) →
      s.tasks i = some (.committing phase)) : s'.Inv codec where
  names := names
  holder i phase held := lock ▸ inv.holder i phase (tasks i phase held)
  sound i phase held := members ▸ inv.sound i phase (tasks i phase held)

theorem of_quiet (inv : s.Inv codec) (quiet : s.Quiet r) : r.2.Inv codec :=
  inv.of_same (quiet.node ▸ inv.names) (by rw [members, quiet.node]; rfl) quiet.lock quiet.tasks

/-- A section of the task that holds the lock, or takes it. -/
theorem of_holder (inv : s.Inv codec) (mine : s.lock = none ∨ s.lock = some task)
    (names : s'.node.NamesDistinct codec) (tasks : s'.tasks = s.tasks)
    (own : ∀ phase, t = some (.committing phase) → s'.lock = some task ∧ phase.Sound s'.members) :
    (s'.setTask task t).Inv codec := by
  -- any other commit in progress would hold the lock too
  have others : ∀ i phase, i ≠ task → s'.tasks i ≠ some (.committing phase) := by
    intro i phase other held
    have holds := inv.holder i phase (tasks ▸ held)
    rcases mine with free | mine
    · exact absurd (free.symm.trans holds) (by simp)
    · exact other (Option.some.inj (holds.symm.trans mine))
  have mine_only : ∀ i phase, (s'.setTask task t).tasks i = some (.committing phase) →
      i = task ∧ t = some (.committing phase) := by
    intro i phase held
    rw [tasks_setTask] at held
    split at held
    · next same => exact ⟨same, held⟩
    · next other => exact absurd held (others i phase other)
  refine ⟨names, fun i phase held => ?_, fun i phase held => ?_⟩
  · obtain ⟨rfl, committing⟩ := mine_only i phase held
    exact (own phase committing).1
  · obtain ⟨rfl, committing⟩ := mine_only i phase held
    exact (own phase committing).2

end Inv

/-! ## The sections of a commit -/

section

variable {s s₁ : Desk Hash} {task : Nat} (inv : s.Inv codec) (mine : s.lock = some task)

include inv mine

/-- After a snapshot commit that ends the task's commit. -/
theorem Commits.ends (commits : s.Commits codec s₁) (lock : Option Nat) {t : Option AcceptTask}
    (outside : ∀ phase, t ≠ some (.committing phase)) :
    ({ s₁ with lock := lock }.setTask task t).Inv codec :=
  inv.of_holder (.inr mine) (inv.names.of_committed commits.node) commits.tasks
    fun phase held => absurd held (outside phase)

/-- After a snapshot commit that failed. -/
theorem Commits.fails (commits : s.Commits codec s₁) (phase : SeatPhase)
    (sound : phase.Sound s.members) :
    (s₁.setTask task (some (.committing phase))).Inv codec := by
  refine inv.of_holder (.inr mine) (inv.names.of_committed commits.node) commits.tasks ?_
  intro phase' held
  cases held
  refine ⟨commits.lock.trans mine, ?_⟩
  rw [members, commits.node.group]
  exact sound

variable {seat : Seat}

theorem rollBack_inv (sound : (SeatPhase.failed seat).Sound s.members) :
    (s.rollBack codec task seat).2.Inv codec := by
  obtain ⟨before, distinct, displaced, seated⟩ := sound
  obtain ⟨restored, found, same⟩ := restoreDisplacedMember_insert displaced
  rw [← seated] at found
  unfold rollBack
  rw [found]
  refine inv.of_holder (.inr mine) (.of_converged (distinct.congr same) rfl) rfl ?_
  intro phase held
  cases held
  refine ⟨mine, ?_⟩
  -- the roster with the seat on top is the one of before the rollback
  have seatedAgain : ∀ i, (restored.insert seat.tentative).get i = s.members.get i := by
    intro i
    rw [seated, KeyedMap.get_insert, KeyedMap.get_insert, same]
  exact inv.names.1.congr seatedAgain

theorem retainSeat_inv (sound : (SeatPhase.retaining seat).Sound s.members) :
    (s.retainSeat codec task seat).2.Inv codec := by
  unfold retainSeat
  refine inv.of_holder (.inr mine) (.of_converged sound rfl) rfl ?_
  intro phase held
  cases held
  exact ⟨mine, trivial⟩

variable [DecidableEq Hash]

variable (env : Surroundings Hash)

theorem commitSeat_inv (sound : (SeatPhase.seated seat).Sound s.members) :
    (s.commitSeat codec task env seat).2.Inv codec := by
  unfold commitSeat
  split
  · next saved => exact (Commits.of_eq saved).ends inv mine none (by simp)
  · next failed => exact (Commits.of_eq failed).fails inv mine (.failed seat) sound

theorem commitRollback_inv (sound : (SeatPhase.rolledBack seat).Sound s.members) :
    (s.commitRollback codec task env seat).2.Inv codec := by
  unfold commitRollback
  split
  · next saved => exact (Commits.of_eq saved).ends inv mine none (by simp)
  · next failed => exact (Commits.of_eq failed).fails inv mine (.retaining seat) sound

theorem commitRetained_inv : (s.commitRetained codec task env).2.Inv codec := by
  unfold commitRetained
  split
  · next saved => exact (Commits.of_eq saved).ends inv mine none (by simp)
  · next failed => exact (Commits.of_eq failed).ends inv mine none (by simp)

theorem advanceCommit_inv (sound : phase.Sound s.members) :
    (s.advanceCommit codec task env phase).2.Inv codec := by
  cases phase with
  | seated seat => exact commitSeat_inv inv mine env sound
  | failed seat => exact rollBack_inv inv mine sound
  | rolledBack seat => exact commitRollback_inv inv mine env sound
  | retaining seat => exact retainSeat_inv inv mine sound
  | retained seat => exact commitRetained_inv inv mine env

end

/-! ## The sections that choose or take a name -/

variable {request : AdmissionRequest} {hostname : Option Name}

/-- A validated name is free at that moment. -/
theorem validateAdmission_free {s : Desk Hash} {task : Nat}
    (validated : (s.validateAdmission task request).1 = .validated hostname) :
    ∀ name ∈ hostname, name ∉ takenHostnames s.members request.remoteId := by
  unfold validateAdmission at validated
  split at validated
  · cases validated
    simp
  split at validated
  · next settled =>
    cases validated
    intro name named
    cases named
    exact admissionHostname_free settled
  · cases validated

section

variable {s : Desk Hash} {task : Nat} (inv : s.Inv codec) (free : s.lock = none)

include inv free

/-- A seat under a free name. -/
theorem seat_inv (unheld : ∀ name ∈ hostname, name ∉ takenHostnames s.members request.remoteId) :
    (s.seat task env request hostname).2.Inv codec := by
  refine inv.of_holder (.inl free) ⟨inv.names.1.insert unheld, inv.names.2⟩ rfl ?_
  intro phase held
  cases held
  exact ⟨rfl, s.members, inv.names.1, rfl, rfl⟩

/-- An admission that is validated and seated in one go keeps the names distinct, so it
is the gap between the two sections that loses them. -/
theorem seat_at_once {env : Surroundings Hash}
    (validated : (s.validateAdmission task request).1 = .validated hostname) :
    ((s.validateAdmission task request).2.seat task env request hostname).2.Inv codec := by
  have quiet := validateAdmission_quiet (s := s) task request
  refine seat_inv (inv.of_quiet quiet) (quiet.lock.trans free) ?_
  intro name named
  rw [members, quiet.node]
  exact validateAdmission_free validated name named

variable [DecidableEq Hash]

theorem memberHello_inv (env : Surroundings Hash) (id : EndpointId) (hostname : Option Name)
    (cert : Option PresentedCert) :
    (s.memberHello codec task env id hostname cert).2.Inv codec := by
  unfold memberHello
  split
  · exact inv.of_holder (.inl free) inv.names rfl (by simp)
  next member held =>
  dsimp only
  split
  · exact inv.of_holder (.inl free) inv.names rfl (by simp)
  refine inv.of_holder (.inl free)
    (.of_committed ?_ (commitCurrentSnapshot_commits codec env.disk _).node)
    (commitCurrentSnapshot_commits codec env.disk _).tasks (by simp)
  refine ⟨inv.names.1.insert fun name named => ?_, inv.names.2⟩
  have own : member.identity = id := KeyedMap.key_get held
  rw [own]
  exact hello_name_free inv.names.1 held named

end

/-- An approval leaves the members alone. -/
theorem approve_inv {s : Desk Hash} (inv : s.Inv codec) (task : Nat) (entry : ApprovedEntry) :
    (s.approve codec task entry).2.Inv codec := by
  refine inv.of_same (.of_converged inv.names.1 rfl) rfl rfl fun i phase held => ?_
  rw [approve, tasks_setTask] at held
  split at held
  · cases held
  · exact held

end Desk

/-- If the step takes the seat of a validated admission, nobody else holds the name it
was validated with at that moment. -/
def SeatsFree (s : Desk Hash) (a : DeskAct Hash) : Prop :=
  ∀ admission ∈ s.seating a, ∀ name ∈ admission.2,
    name ∉ takenHostnames s.members admission.1.remoteId

instance (s : Desk Hash) (a : DeskAct Hash) : Decidable (SeatsFree s a) :=
  inferInstanceAs (Decidable (∀ admission ∈ s.seating a, ∀ name ∈ admission.2, _))

section

variable [DecidableEq Hash] {s : Desk Hash} {a : DeskAct Hash} {r : DeskOut Hash × Desk Hash}

/-- One step keeps the invariant if the seat it takes, if any, is under a free name. -/
theorem DeskChange.inv (change : DeskChange codec s a r) (inv : s.Inv codec)
    (free : SeatsFree s a) : r.2.Inv codec := by
  cases change with
  | quiet quiet => exact inv.of_quiet quiet
  | seats task env request hostname validated unlocked =>
    exact Desk.seat_inv inv unlocked (free _ validated)
  | commits task env phase held mine =>
    exact Desk.advanceCommit_inv inv mine env (inv.sound task phase held)
  | greets task env id hostname cert unlocked =>
    exact Desk.memberHello_inv inv unlocked env id hostname cert
  | approves task entry => exact Desk.approve_inv inv task entry
  | stores disk saved =>
    have commits := Desk.commitCurrentSnapshot_commits codec disk s
    exact inv.of_same (inv.names.of_committed commits.node)
      (by rw [Desk.members, commits.node.group]; rfl) commits.lock
      fun i phase held => commits.tasks ▸ held
  | signs disk =>
    have kept := Node.Bookkept.preparePublication disk s.node
    exact inv.of_same (inv.names.of_committed kept.committed)
      (by rw [Desk.members, kept.net.group]; rfl) rfl fun i phase held => held

end

/-! ## Runs -/

/-- The roster has not changed since the section that validated the admission whose seat
the step takes. -/
def SeatsInTurn (h : List (DeskEntry Hash)) (e : DeskEntry Hash) : Prop :=
  ∀ admission ∈ e.before.seating e.act, ∃ pre v mid, h = pre ++ v :: mid ∧
    (∃ task, v.before.validateAdmission task admission.1 = (.validated admission.2, v.after)) ∧
    ∀ m ∈ mid, m.after.members = m.before.members

/-- Distinct names to begin with, and no commit in progress. -/
structure Desk.Settled (codec : GroupCodec Hash) (s : Desk Hash) : Prop where
  names : s.node.NamesDistinct codec
  tasks : ∀ i, s.tasks i = none

/-- The live roster after the step, and the one it signs, have distinct names. -/
structure KeepsNames (codec : GroupCodec Hash) (e : DeskEntry Hash) : Prop where
  live : DistinctHostnames e.after.members
  published : ∀ hash ∈ e.out.published, ∀ group ∈ codec.named hash, DistinctHostnames group.members

section

variable [DecidableEq Hash] {s₀ s : Desk Hash} {h : List (DeskEntry Hash)}

/-- Seats under free names keep the invariant of a whole run. -/
theorem run_inv (settled : s₀.Settled codec) (run : Run (deskStep codec me) s₀ h s)
    (free : ∀ e ∈ h, SeatsFree e.before e.act) : s.Inv codec := by
  refine run.invariant free ⟨settled.names, fun i phase held => ?_, fun i phase held => ?_⟩
    fun _ _ step free inv => (DeskAct.run_cases step).inv inv free
  · rw [settled.tasks] at held
    cases held
  · rw [settled.tasks] at held
    cases held

theorem SeatsInTurn.seatsFree (turn : SeatsInTurn h e)
    (run : Run (deskStep codec me) s₀ h e.before) : SeatsFree e.before e.act := by
  intro admission seats
  obtain ⟨pre, v, mid, rfl, ⟨task, validates⟩, still⟩ := turn admission seats
  obtain ⟨-, -, rest⟩ := run.split rfl
  have same : e.before.members = v.after.members :=
    rest.invariant still rfl fun _ _ _ same before => same.trans before
  have quiet := Desk.validateAdmission_quiet (s := v.before) task admission.1
  rw [validates] at quiet
  rw [same, Desk.members, quiet.node]
  exact Desk.validateAdmission_free (congrArg Prod.fst validates)

/-- **Hostnames.** Along every run, the names of every live and every signed roster stay
distinct exactly if each seat is taken under a name that nobody else holds at that
moment. They do if the roster never changes between a validation and its seat. -/
theorem unique_names_iff (settled : s₀.Settled codec) (run : Run (deskStep codec me) s₀ h s) :
    ((∀ e ∈ h, KeepsNames codec e) ↔ ∀ e ∈ h, SeatsFree e.before e.act) ∧
      ((∀ pre e post, h = pre ++ e :: post → SeatsInTurn pre e) → ∀ e ∈ h, KeepsNames codec e) := by
  suffices exactly : (∀ e ∈ h, KeepsNames codec e) ↔ ∀ e ∈ h, SeatsFree e.before e.act by
    refine ⟨exactly, fun turns => exactly.mpr fun e member => ?_⟩
    obtain ⟨pre, post, rfl⟩ := List.append_of_mem member
    exact (turns pre e post rfl).seatsFree (run.split rfl).1
  constructor
  · rintro keeps e member ⟨request, hostname⟩ validated
    obtain ⟨task, env, seated⟩ := DeskAct.run_seating (run.entry_step member) validated
    have after : e.after = (e.before.seat task env request hostname).2 := congrArg Prod.snd seated
    have distinct := (keeps e member).live
    rw [after] at distinct
    exact distinct.freeIn
  · intro free e member
    obtain ⟨h', part, upto⟩ := run.upto member
    have inv := run_inv settled upto fun e' earlier => free e' (part earlier)
    have change := DeskAct.run_cases (run.entry_step member)
    exact ⟨inv.names.1, fun hash signed => inv.names.2 hash (change.signsCurrent hash signed)⟩

end

/-! ## Two admissions side by side -/

def calm : Surroundings GroupBlob where
  disk := healthyDisk
  now := 1
  delivered := true
  grantDirect := false
  record := none
  signs := true

/-- Node 1 runs an open network on its own, with one invite out, bound to `web`. -/
def boundDesk : Desk GroupBlob where
  node := (convergedMesh none).node
  mode := .openMode
  pending := ∅
  invites := [⟨['x'], ['x'], 0, 100, .pending, some ['w', 'e', 'b']⟩]
  lock := none
  tasks := fun _ => none

theorem boundDesk_settled : boundDesk.Settled plainCodec := by
  have empty : DistinctHostnames KeyedMap.empty := by
    intro i j a b name held
    cases held
  have sole : DistinctHostnames soleGroup.members := empty.insert (by decide)
  exact ⟨.of_converged sole rfl, fun _ => rfl⟩

theorem seat_at_once_sole :
    let request : AdmissionRequest := ⟨2, some ['a'], none, false, false, none⟩
    ((boundDesk.validateAdmission 0 request).2.seat 0 calm request (some ['a', '-', '1'])).2.Inv
      plainCodec :=
  Desk.seat_at_once ⟨boundDesk_settled.names, by simp [boundDesk], by simp [boundDesk]⟩ rfl rfl

/-- Peer 2 brings the invite, peer 3 asks for `web` of its own accord. -/
def rivals : List (DeskAct GroupBlob) :=
  [.receive 0 calm 2 (.joinRequest (some ['x']) none none),
    .receive 1 calm 3 (.joinRequest none (some ['w', 'e', 'b']) none)]

def hostnameOf (members : MemberList) (id : EndpointId) : Option Name :=
  (members.get id).bind (·.hostname)

/-- Both are validated before either takes its seat, and both end up with the name, in
the live roster and in the one that is signed. -/
theorem bound_name_held_twice :
    ∃ h s, boundDesk.Settled plainCodec ∧ Run (deskStep plainCodec 1) boundDesk h s ∧
      hostnameOf s.members 2 = some ['w', 'e', 'b'] ∧
      hostnameOf s.members 3 = some ['w', 'e', 'b'] ∧
      ∃ e ∈ h, ∃ group ∈ e.out.published,
        hostnameOf group.members 2 = some ['w', 'e', 'b'] ∧
        hostnameOf group.members 3 = some ['w', 'e', 'b'] := by
  have run := run_execute (f := fun s a => DeskAct.run plainCodec 1 s a) (s := boundDesk)
    (rivals ++ [.advance 0 calm, .advance 1 calm, .advance 0 calm, .advance 0 calm,
      .advance 1 calm, .advance 1 calm]) rfl
  exact ⟨_, _, boundDesk_settled, run, rfl, rfl, _, List.mem_of_getLast? rfl, _, rfl, rfl, rfl⟩

/-- Peer 2 is seated before peer 3 is validated, which then becomes `web-1`. -/
theorem unique_names_in_turn :
    ∃ h s, boundDesk.Settled plainCodec ∧ Run (deskStep plainCodec 1) boundDesk h s ∧
      hostnameOf s.members 2 = some ['w', 'e', 'b'] ∧
      hostnameOf s.members 3 = some ['w', 'e', 'b', '-', '1'] ∧
      ∀ e ∈ h, KeepsNames plainCodec e := by
  have run := run_execute (f := fun s a => DeskAct.run plainCodec 1 s a) (s := boundDesk)
    (rivals ++ [.advance 0 calm, .advance 0 calm, .advance 0 calm, .advance 1 calm,
      .advance 1 calm, .advance 1 calm]) rfl
  refine ⟨_, _, boundDesk_settled, run, rfl, rfl, ?_⟩
  exact (unique_names_iff boundDesk_settled run).1.mpr (by decide)

end Rayfish
