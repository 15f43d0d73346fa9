import Rayfish.Lib.Run
import Rayfish.Mesh.Admission
import Rayfish.Mesh.Durability

/-!
# The steps of a coordinator's desk

What one section of an admission can do. Most are `Quiet`: they leave the network
alone. The others seat a peer, move a commit on, refresh a member or approve a
request. `DeskAct.run_cases` says so for every step, and `DeskChange.signsCurrent` that
a step signs nothing but the generation it leaves the node on.
-/

namespace Rayfish

open Lib

variable {Hash : Type} {codec : GroupCodec Hash} {me : EndpointId}

abbrev DeskEntry (Hash : Type) := Entry (Desk Hash) (DeskAct Hash) (DeskOut Hash)

/-! ## Sections that seat nobody -/

/-- The hash a step signs. -/
def DeskOut.published : DeskOut Hash → Option Hash
  | .committed hash => hash
  | .signed hash => hash
  | _ => none

variable (task : Nat)

namespace Desk

/-- The validated admission whose seat an action takes, with its name. -/
def seating (s : Desk Hash) : DeskAct Hash → Option (AdmissionRequest × Option Name)
  | .advance task _ =>
    match s.tasks task with
    | some (.validated request hostname) => some (request, hostname)
    | _ => none
  | _ => none

theorem tasks_setTask (s : Desk Hash) (task i : Nat) (t : Option AcceptTask) :
    (s.setTask task t).tasks i = if i = task then t else s.tasks i :=
  Function.update_apply ..

/-- A section that leaves the network alone and starts no commit. -/
structure Quiet (s : Desk Hash) (r : DeskOut Hash × Desk Hash) : Prop where
  node : r.2.node = s.node
  lock : r.2.lock = s.lock
  tasks : ∀ i phase, r.2.tasks i = some (.committing phase) → s.tasks i = some (.committing phase)
  published : r.1.published = none

section

variable {s s' : Desk Hash} {out : DeskOut Hash} (task : Nat)

section

variable (node : s'.node = s.node) (lock : s'.lock = s.lock) (tasks : s'.tasks = s.tasks)

include node lock tasks

/-- A section that only answers, up to the queue and the ledger. -/
theorem Quiet.answer (published : out.published = none) : s.Quiet (out, s') :=
  ⟨node, lock, fun _ _ held => tasks ▸ held, published⟩

/-- A section that moves its task on, not into a commit. -/
theorem Quiet.move (outside : ∀ phase, t ≠ some (.committing phase))
    (published : out.published = none) : s.Quiet (out, s'.setTask task t) := by
  refine ⟨node, lock, fun i phase held => ?_, published⟩
  rw [tasks_setTask] at held
  split at held
  · exact absurd held (outside phase)
  · exact tasks ▸ held

theorem authorise_quiet (request : AdmissionRequest) : s.Quiet (s'.authorise task request) :=
  .move task node lock tasks (by simp) rfl

end

theorem greet_quiet (peer : EndpointId) (hostname : Option Name) (cert : Option PresentedCert) :
    s.Quiet (s.greet task peer hostname cert) := by
  unfold greet
  split
  · exact .answer rfl rfl rfl rfl
  · exact .move task rfl rfl rfl (by simp) rfl

theorem queue_quiet (peer : EndpointId) (hostname : Option Name) (cert : Option DeviceCert)
    (env : Surroundings Hash) : s.Quiet (s.queue peer hostname cert env) := by
  unfold queue
  split
  · split
    · exact .answer rfl rfl rfl rfl
    · exact .answer rfl rfl rfl rfl
  · exact .answer rfl rfl rfl rfl

variable (env : Surroundings Hash)

/-- A redemption changes the ledger only. -/
theorem redeem_ledger (secret : Name) (peer : EndpointId) :
    ∃ invites, (s.redeem env secret peer).2 = { s with invites := invites } := by
  unfold redeem
  split
  · split
    · exact ⟨_, rfl⟩
    · split
      · exact ⟨_, rfl⟩
      · exact ⟨_, rfl⟩
      · exact ⟨_, rfl⟩
  · exact ⟨_, rfl⟩

theorem redeemInvite_quiet (peer : EndpointId) (secret : Name) (hostname : Option Name)
    (cert : Option DeviceCert) :
    s.Quiet (s.redeemInvite task env peer secret hostname cert) := by
  obtain ⟨invites, ledger⟩ := s.redeem_ledger env secret peer
  unfold redeemInvite
  split
  · next redeemed =>
    rw [redeemed] at ledger
    cases ledger
    exact authorise_quiet task (by rfl) (by rfl) (by rfl) _
  · next refused =>
    rw [refused] at ledger
    cases ledger
    split
    · exact authorise_quiet task (by rfl) (by rfl) (by rfl) _
    · exact .answer rfl rfl rfl rfl

theorem handleJoinRequest_quiet (peer : EndpointId) (secret hostname : Option Name)
    (cert : Option PresentedCert) :
    s.Quiet (handleJoinRequest me s task env peer secret hostname cert) := by
  unfold handleJoinRequest
  split
  · exact .answer rfl rfl rfl rfl
  split
  · exact .answer rfl rfl rfl rfl
  split
  · exact s.greet_quiet task peer hostname cert
  dsimp only
  split
  · exact authorise_quiet task rfl rfl rfl _
  split
  · exact s.redeemInvite_quiet task env peer _ hostname _
  · split
    · exact authorise_quiet task rfl rfl rfl _
    · exact s.queue_quiet peer hostname _ env

theorem handleFrame_quiet (peer : EndpointId) (frame : ControlFrame) :
    s.Quiet (s.handleFrame me task env peer frame) := by
  cases frame with
  | joinRequest secret hostname cert =>
    exact handleJoinRequest_quiet task env peer secret hostname cert
  | meshHello hostname cert =>
    rw [handleFrame]
    split
    · exact s.greet_quiet task peer hostname cert
    · exact handleJoinRequest_quiet task env peer none hostname cert

theorem validateAdmission_quiet (request : AdmissionRequest) :
    s.Quiet (s.validateAdmission task request) := by
  unfold validateAdmission
  split
  · exact .move task rfl rfl rfl (by simp) rfl
  · split
    · exact .move task rfl rfl rfl (by simp) rfl
    · exact .move task rfl rfl rfl (by simp) rfl

/-- Taking a request from the queue leaves the network alone. -/
theorem acceptRequest_quiet {id : EndpointId} {r : DeskOut Hash × Desk Hash}
    (accepted : s.acceptRequest task id = some r) : s.Quiet r := by
  obtain ⟨request, -, rfl⟩ := Option.map_eq_some_iff.mp accepted
  exact .move task (by rfl) (by rfl) (by rfl) (by simp) rfl

theorem restoreInvite_quiet (burned : Option Name) : s.Quiet (s.restoreInvite task env burned) := by
  exact .move task (by rfl) (by rfl) (by rfl) (by simp) rfl

end

theorem welcome_quiet [DecidableEq Hash] {s : Desk Hash} (env : Surroundings Hash) (id : EndpointId)
    (hostname : Option Name) (cert : Option PresentedCert) :
    s.Quiet (s.welcome task env id hostname cert) := by
  unfold welcome
  split
  · exact .move task rfl rfl rfl (by simp) rfl
  split
  · exact .move task rfl rfl rfl (by simp) rfl
  · exact .move task rfl rfl rfl (by simp) rfl

end Desk

/-! ## The snapshot commits -/

namespace Desk

/-- A snapshot commit keeps the group and stays on it. -/
structure Commits (codec : GroupCodec Hash) (s s' : Desk Hash) : Prop where
  node : s.node.Committed codec s'.node
  lock : s'.lock = s.lock
  tasks : s'.tasks = s.tasks

theorem commitCurrentSnapshot_commits [DecidableEq Hash] (codec : GroupCodec Hash) (disk : Disk)
    (s : Desk Hash) :
    s.Commits codec (s.commitCurrentSnapshot disk codec).2 := by
  have same := s.node.commitCurrentSnapshot_committed codec disk
  unfold commitCurrentSnapshot
  dsimp only
  split
  · exact ⟨same, rfl, rfl⟩
  · exact ⟨same, rfl, rfl⟩

theorem Commits.of_eq [DecidableEq Hash] {disk : Disk} {s s₁ : Desk Hash} {saved : Bool}
    (h : s.commitCurrentSnapshot disk codec = (saved, s₁)) : s.Commits codec s₁ := by
  have commits := commitCurrentSnapshot_commits codec disk s
  rwa [h] at commits

end Desk

/-- Taking the tentative seat back leaves the roster as it was. -/
theorem restoreDisplacedMember_insert {before : MemberList} {seat : Seat}
    (displaced : seat.displaced = before.get seat.tentative.identity) :
    ∃ restored : MemberList,
      Desk.restoreDisplacedMember (before.insert seat.tentative) seat = some restored ∧
        ∀ i, restored.get i = before.get i := by
  unfold Desk.restoreDisplacedMember
  rw [KeyedMap.get_insert, if_pos rfl, if_pos rfl]
  refine ⟨_, rfl, fun i => ?_⟩
  cases held : seat.displaced with
  | none =>
    rw [KeyedMap.get_erase]
    split
    · next own => rw [own, ← displaced, held]
    · next other => rw [KeyedMap.get_insert, if_neg other]
  | some member =>
    have key : member.identity = seat.tentative.identity :=
      KeyedMap.key_get (displaced.symm.trans held)
    rw [KeyedMap.get_insert, key]
    split
    · next own => rw [own, ← displaced, held]
    · next other => rw [KeyedMap.get_insert, if_neg other]

/-- The publisher signs the generation the node is converged on. -/
theorem Node.preparePublication_current [DecidableEq Hash] {disk : Disk} {n n' : Node Hash}
    {hash : Hash} (h : n.preparePublication disk = (some hash, n')) :
    n'.net.convergedHash = some hash := by
  obtain ⟨chosen, rfl⟩ := Prod.mk.injEq .. ▸ h
  have publishable := (Option.filter_eq_some_iff.mp chosen).2
  simp only [Node.snapshotIsPublishable, Bool.and_eq_true, decide_eq_true_eq] at publishable
  exact publishable.1.2.1.1.1.1.2

/-! ## What a step signs -/

namespace Desk

/-- A signed hash is the one the node is converged on. -/
def SignsCurrent (r : DeskOut Hash × Desk Hash) : Prop :=
  ∀ hash ∈ r.1.published, r.2.node.net.convergedHash = some hash

variable {s : Desk Hash} {r : DeskOut Hash × Desk Hash}

theorem SignsCurrent.unsigned (published : r.1.published = none) : SignsCurrent r :=
  fun hash signed => absurd (published.symm.trans signed) (by simp)

theorem finishCommit_signsCurrent (env : Surroundings Hash) :
    SignsCurrent (s.finishCommit task env) := by
  intro hash signed
  unfold finishCommit DeskOut.published at signed
  dsimp only at signed
  split at signed
  · exact signed
  · cases signed

variable [DecidableEq Hash]

theorem advanceCommit_signsCurrent (env : Surroundings Hash) (phase : SeatPhase) :
    SignsCurrent (s.advanceCommit codec task env phase) := by
  cases phase with
  | seated seat =>
    rw [advanceCommit, commitSeat]
    split
    · exact finishCommit_signsCurrent task env
    · exact .unsigned rfl
  | failed seat | retaining seat => exact .unsigned rfl
  | rolledBack seat =>
    rw [advanceCommit, commitRollback]
    split
    · exact .unsigned rfl
    · exact .unsigned rfl
  | retained seat =>
    rw [advanceCommit, commitRetained]
    split
    · exact finishCommit_signsCurrent task env
    · exact .unsigned rfl

theorem memberHello_unsigned (env : Surroundings Hash) (id : EndpointId) (hostname : Option Name)
    (cert : Option PresentedCert) :
    (s.memberHello codec task env id hostname cert).1.published = none := by
  unfold memberHello
  split
  · rfl
  · dsimp only
    split
    · rfl
    · rfl

end Desk

/-! ## Steps -/

variable [DecidableEq Hash]

/-- What one step does. -/
inductive DeskChange (codec : GroupCodec Hash) (s : Desk Hash) (a : DeskAct Hash) :
    DeskOut Hash × Desk Hash → Prop
  | quiet (quiet : s.Quiet r) : DeskChange codec s a r
  | seats (task : Nat) (env : Surroundings Hash) (request : AdmissionRequest)
      (hostname : Option Name) (validated : s.seating a = some (request, hostname))
      (free : s.lock = none) : DeskChange codec s a (s.seat task env request hostname)
  | commits (task : Nat) (env : Surroundings Hash) (phase : SeatPhase)
      (held : s.tasks task = some (.committing phase)) (mine : s.lock = some task) :
      DeskChange codec s a (s.advanceCommit codec task env phase)
  | greets (task : Nat) (env : Surroundings Hash) (id : EndpointId) (hostname : Option Name)
      (cert : Option PresentedCert) (free : s.lock = none) :
      DeskChange codec s a (s.memberHello codec task env id hostname cert)
  | approves (task : Nat) (entry : ApprovedEntry) :
      DeskChange codec s a (s.approve codec task entry)
  | stores (disk : Disk) (saved : Bool) :
      DeskChange codec s a (.stored saved, (s.commitCurrentSnapshot disk codec).2)
  | signs (disk : Disk) :
      DeskChange codec s a (.signed (s.node.preparePublication disk).1,
        { s with node := (s.node.preparePublication disk).2 })

variable {s : Desk Hash} {a : DeskAct Hash} {r : DeskOut Hash × Desk Hash}

theorem Desk.advance_cases {task : Nat} {env : Surroundings Hash} {t : AcceptTask}
    (held : s.tasks task = some t) (step : s.advance codec task env t = some r) :
    DeskChange codec s (.advance task env) r := by
  cases t with
  | admitting request =>
    rw [← Option.some.inj step]
    exact .quiet (Desk.validateAdmission_quiet task request)
  | validated request hostname =>
    obtain ⟨free, step⟩ := Option.ite_none_right_eq_some.mp step
    rw [← Option.some.inj step]
    exact .seats task env request hostname (by simp only [seating, held]) free
  | committing phase =>
    obtain ⟨mine, step⟩ := Option.ite_none_right_eq_some.mp step
    rw [← Option.some.inj step]
    exact .commits task env phase held mine
  | denied burned =>
    rw [← Option.some.inj step]
    exact .quiet (Desk.restoreInvite_quiet task env burned)
  | greeted id hostname cert =>
    obtain ⟨-, step⟩ := Option.ite_none_right_eq_some.mp step
    rw [← Option.some.inj step]
    exact .quiet (Desk.welcome_quiet task env id hostname cert)
  | welcomed id hostname cert =>
    obtain ⟨free, step⟩ := Option.ite_none_right_eq_some.mp step
    rw [← Option.some.inj step]
    exact .greets task env id hostname cert free
  | approving entry =>
    rw [← Option.some.inj step]
    exact .approves task entry

theorem DeskAct.run_cases (step : a.run codec me s = some r) : DeskChange codec s a r := by
  cases a with
  | receive task env peer frame =>
    obtain ⟨-, step⟩ := Option.ite_none_right_eq_some.mp step
    rw [← Option.some.inj step]
    exact .quiet (Desk.handleFrame_quiet task env peer frame)
  | advance task env =>
    obtain ⟨t, held, step⟩ := Option.bind_eq_some_iff.mp step
    exact Desk.advance_cases held step
  | accept task id =>
    obtain ⟨-, step⟩ := Option.ite_none_right_eq_some.mp step
    exact .quiet (Desk.acceptRequest_quiet task step)
  | store disk =>
    obtain ⟨-, step⟩ := Option.ite_none_right_eq_some.mp step
    rw [← Option.some.inj step]
    exact .stores disk _
  | publish disk =>
    obtain ⟨-, step⟩ := Option.ite_none_right_eq_some.mp step
    rw [← Option.some.inj step]
    exact .signs disk

/-- A step on a validated admission takes its seat. -/
theorem DeskAct.run_seating (step : a.run codec me s = some r)
    (validated : s.seating a = some (request, hostname)) :
    ∃ task env, r = s.seat task env request hostname := by
  unfold Desk.seating at validated
  split at validated
  · next task env =>
    obtain ⟨t, held, step⟩ := Option.bind_eq_some_iff.mp step
    rw [held] at validated
    split at validated
    · next same =>
      cases same
      cases validated
      obtain ⟨-, step⟩ := Option.ite_none_right_eq_some.mp step
      exact ⟨task, env, (Option.some.inj step).symm⟩
    · cases validated
  · cases validated

/-- Whatever a step signs is the generation it leaves the node on. -/
theorem DeskChange.signsCurrent (change : DeskChange codec s a r) : Desk.SignsCurrent r := by
  cases change with
  | quiet quiet => exact .unsigned quiet.published
  | seats task env request hostname _ _ | approves task entry | stores disk saved =>
    exact .unsigned rfl
  | commits task env phase _ _ => exact Desk.advanceCommit_signsCurrent task env phase
  | greets task env id hostname cert _ =>
    exact .unsigned (Desk.memberHello_unsigned task env id hostname cert)
  | signs disk =>
    intro hash signed
    exact Node.preparePublication_current (Prod.ext signed rfl)

end Rayfish
