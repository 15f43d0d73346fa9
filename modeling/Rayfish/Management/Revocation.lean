import Rayfish.Management.Service

/-!
# Revoking a controller

Once a revoke has returned, no request of the controller is under way and none is let in
(`Cut`), so nothing on the machine changes on its behalf any more. What the gate does not
cover is a join of the controller that waits for approval: its loop goes on after the revoke,
and its marker is resumed by the next daemon. With no such join when the controller is
revoked, the machine has seen the last of it until it is enrolled again.
-/

namespace Rayfish.Management

open Lib

/-- A join that waits for approval goes back to this origin: a marker, a loop or a resumed
join. -/
def Managed.Waits (s : Managed) (origin : Origin) : Prop :=
  (∃ entry ∈ s.pendingJoins, entry.origin = origin) ∨
  (∃ retry ∈ s.retries, retry.origin = origin) ∨
  ∃ resume ∈ s.resumes, resume.entry.origin = origin

instance (s : Managed) (origin : Origin) : Decidable (s.Waits origin) :=
  inferInstanceAs (Decidable (_ ∨ _ ∨ _))

/-- Nothing on the machine is of the controller. -/
structure Cut (c : EndpointId) (s : Managed) : Prop where
  grants : ∀ grant ∈ s.controllers, grant.identity ≠ c
  running : ∀ request ∈ s.running, request.1 ≠ c
  markers : ∀ entry ∈ s.pendingJoins, entry.origin ≠ .controller c
  retries : ∀ retry ∈ s.retries, retry.origin ≠ .controller c
  resumes : ∀ resume ∈ s.resumes, resume.entry.origin ≠ .controller c

/-- Nothing has changed for the controller. -/
def ManagedOut.Spares (c : EndpointId) (out : ManagedOut) : Prop :=
  out.origin = .controller c → out.changes = []

section

variable {α : Type*} {P : α → Prop} {l : List α} {i : Nat} {y : α} (all : ∀ x ∈ l, P x)

include all

theorem forall_modify (kept : ∀ x, P x → P (f x)) : ∀ x ∈ l.modify i f, P x := by
  intro x member
  obtain ⟨j, found⟩ := List.mem_iff_getElem?.mp member
  rw [List.getElem?_modify] at found
  obtain ⟨y, old, rfl⟩ := Option.map_eq_some_iff.mp found
  have held := all y (List.mem_of_getElem? old)
  split
  · exact kept y held
  · exact held

theorem forall_set (new : P y) : ∀ x ∈ l.set i y, P x := by
  intro x member
  rcases List.mem_or_eq_of_mem_set member with old | rfl
  · exact all x old
  · exact new

theorem forall_snoc (new : P y) : ∀ x ∈ l ++ [y], P x := by
  intro x member
  rcases mem_snoc_cases member with old | rfl
  · exact all x old
  · exact new

theorem forall_eraseIdx : ∀ x ∈ l.eraseIdx i, P x :=
  fun x member => all x (List.mem_of_mem_eraseIdx member)

end

section Steps

variable {lib : ManagementLib} {me c : EndpointId} {s s' : Managed}

/-! ## Joins -/

theorem Cut.removePendingJoin (cut : Cut c s) (key : EndpointId) :
    Cut c (s.removePendingJoin key) :=
  { cut with markers := fun entry member => cut.markers entry (List.mem_of_mem_filter member) }

theorem Cut.addPendingJoin (cut : Cut c s) (other : entry.origin ≠ .controller c) :
    Cut c (s.addPendingJoin entry) := by
  unfold Managed.addPendingJoin
  split
  · exact { cut with markers := forall_set cut.markers other }
  · exact { cut with markers := forall_snoc cut.markers other }

theorem Cut.queuePendingJoin (cut : Cut c s) (other : origin ≠ .controller c)
    (options : JoinOptions) (saves : Bool) :
    Cut c (queuePendingJoin s options origin saves).2 := by
  unfold Management.queuePendingJoin
  split
  · exact cut
  have looping : Cut c { s with retries := s.retries ++ [⟨options, false, origin⟩] } :=
    { cut with retries := forall_snoc cut.retries other }
  cases saves with
  | false => exact looping
  | true => exact looping.addPendingJoin other

/-- An attempt touches the networks only. -/
theorem joinNetworkInner_kept (options : JoinOptions) (reply : JoinReply) :
    ∃ networks, (joinNetworkInner lib s options reply).2.1 = { s with networks } := by
  cases reply with
  | welcomed name coordinators refused =>
    simp only [joinNetworkInner]
    split
    · exact ⟨s.networks, rfl⟩
    · exact ⟨_, rfl⟩
  | pending | denied reason | failed reason => exact ⟨s.networks, rfl⟩

theorem Cut.networks (cut : Cut c s) (networks : List ManagedNetwork) : Cut c { s with networks } :=
  { cut with }

theorem Cut.looping (cut : Cut c s) {retries : List PendingJoinRetry}
    (sourced : ∀ retry ∈ retries, retry.origin ≠ .controller c) : Cut c { s with retries } :=
  { cut with retries := sourced }

theorem Cut.resuming (cut : Cut c s) {resumes : List PendingJoinResume}
    (sourced : ∀ resume ∈ resumes, resume.entry.origin ≠ .controller c) :
    Cut c { s with resumes } :=
  { cut with resumes := sourced }

variable {reply : JoinReply} {changes : List Change}

section

variable (cut : Cut c s)

include cut

theorem Cut.joinNetworkInner
    (tried : joinNetworkInner lib s options reply = (result, s', changes)) : Cut c s' := by
  obtain ⟨networks, same⟩ := @joinNetworkInner_kept lib s options reply
  rw [tried] at same
  cases same
  exact cut.networks networks

theorem Cut.joinNetwork (other : origin ≠ .controller c)
    (ran : joinNetwork lib s options origin reply saves = (outcome, s', changes)) : Cut c s' := by
  unfold Management.joinNetwork at ran
  split at ran
  · next tried =>
    cases ran
    exact (cut.joinNetworkInner tried).removePendingJoin _
  · next tried =>
    cases ran
    exact (cut.joinNetworkInner tried).queuePendingJoin other _ _
  · next tried =>
    cases ran
    exact (cut.joinNetworkInner tried).removePendingJoin _
  · next tried =>
    cases ran
    exact cut.joinNetworkInner tried

theorem Cut.retryReplied {task : Nat} {retry : PendingJoinRetry}
    (found : s.retries[task]? = some retry)
    (ran : retryReplied lib s task retry reply = (s', changes)) : Cut c s' := by
  have other := cut.retries retry (List.mem_of_getElem? found)
  have slept : ∀ item ∈ s.retries.set task { retry with attempting := false },
      item.origin ≠ .controller c := forall_set cut.retries other
  have ended : ∀ item ∈ s.retries.eraseIdx task, item.origin ≠ .controller c :=
    forall_eraseIdx cut.retries
  unfold Management.retryReplied at ran
  split at ran
  · next tried =>
    cases ran
    exact ((cut.joinNetworkInner tried).looping ended).removePendingJoin _
  · cases ran
    exact (cut.looping ended).removePendingJoin _
  · next tried =>
    cases ran
    exact (cut.joinNetworkInner tried).looping slept
  · next tried =>
    cases ran
    exact (cut.joinNetworkInner tried).looping slept

/-! ## Requests -/

/-- The action of another controller. -/
theorem Cut.applyAction
    (ran : applyAction s other here lib me action = .inl (result, s', changes)) : Cut c s' := by
  cases action with
  | status =>
    simp only [Management.applyAction] at ran
    split at ran <;> cases ran <;> exact cut
  | confirmEnrollment receipt =>
    simp only [Management.applyAction] at ran
    split at ran
    · cases ran
      exact cut
    split at ran
    · next confirmed saved =>
      cases ran
      refine { cut with grants := ?_ }
      unfold confirmControllerGrant at confirmed
      split at confirmed
      · cases confirmed
      split at confirmed
      · cases confirmed
        exact forall_modify cut.grants fun grant differs => differs
      · cases confirmed
    · cases ran
      exact cut
    · cases ran
      exact cut
  | join invite name hostname firewall files =>
    simp only [Management.applyAction] at ran
    split at ran
    · cases ran
      exact cut
    split at ran
    · cases ran
      exact cut
    split at ran <;> cases ran
    exact cut
  | leave name =>
    simp only [Management.applyAction] at ran
    split at ran <;> cases ran
    exact cut
  | applySsh name grants =>
    simp only [Management.applyAction] at ran
    unfold applySshGrants at ran
    split at ran
    · cases ran
      exact cut
    split at ran
    · cases ran
      exact cut
    split at ran
    · cases ran
      exact cut
    split at ran
    · cases ran
      exact cut
    dsimp only at ran
    have enabled : Cut c (if grants = [] then s else { s with sshEnabled := true }) := by
      split
      · exact cut
      · exact { cut with }
    split at ran <;> cases ran
    · exact enabled
    · exact enabled.networks _

theorem Cut.finishAction {other : EndpointId} (differs : other ≠ c)
    {running : Running} {saves : Bool} {result : ManagementResult}
    (ran : finishAction s other lib running reply saves = (result, s', changes)) : Cut c s' := by
  have origin : Origin.controller other ≠ .controller c := fun same => differs (by cases same; rfl)
  unfold Management.finishAction at ran
  split at ran
  · split at ran
    all_goals
      next joined =>
      cases ran
      exact cut.joinNetwork origin joined
  · split at ran
    all_goals
      next removed =>
      cases ran
      simp only [removeNetworkLocally, Prod.mk.injEq] at removed
      obtain ⟨-, rfl, -⟩ := removed
      exact cut.networks _

end

/-! ## Every step -/

section

variable (cut : Cut c s) {out : ManagedOut}

include cut

theorem Cut.begin (step : managedStep lib me s (.begin request here) = some (out, s')) :
    Cut c s' ∧ out.Spares c := by
  simp only [managedStep] at step
  split at step
  · next controller action idle found =>
    have begun : Cut c { s with waiting := s.waiting.eraseIdx request } := { cut with }
    split at step
    · next authorized =>
      obtain ⟨grant, member, same⟩ := List.any_eq_true.mp authorized
      have differs : controller ≠ c := of_decide_eq_true same ▸ cut.grants grant member
      split at step
      · next applied =>
        cases step
        exact ⟨begun.applyAction applied, fun same => absurd same (by simpa using differs)⟩
      · cases step
        refine ⟨{ begun with running := ?_ }, fun _ => rfl⟩
        rintro _ ⟨⟩
        exact differs
    · cases step
      exact ⟨begun, fun _ => rfl⟩
  · cases step

theorem Cut.revoke (step : managedStep lib me s (.revoke selector saves) = some (out, s')) :
    Cut c s' ∧ out.Spares c := by
  obtain ⟨-, step⟩ := Option.ite_none_left_eq_some.1 step
  split at step
  · cases step
    exact ⟨cut, fun _ => rfl⟩
  next kept revoked ran =>
  have fewer : ∀ grant ∈ kept, grant ∈ s.controllers := by
    unfold revokeController at ran
    split at ran
    · cases ran
      exact fun _ member => absurd member List.not_mem_nil
    · split at ran <;> cases ran
      exact fun _ member => List.mem_of_mem_filter member
  split at step <;> cases step
  · exact ⟨{ cut with grants := fun grant member => cut.grants grant (fewer grant member) }, nofun⟩
  · exact ⟨cut, fun _ => rfl⟩

theorem Cut.enroll (step : managedStep lib me s (.enroll controller now receipt) = some (out, s'))
    (differs : controller ≠ c) : Cut c s' ∧ out.Spares c := by
  obtain ⟨-, ⟨⟩⟩ := Option.ite_none_left_eq_some.1 step
  refine ⟨{ cut with grants := ?_ }, nofun⟩
  unfold enrolledWith
  split
  · refine forall_modify cut.grants fun grant held => ?_
    split <;> exact held
  · exact forall_snoc cut.grants differs

theorem Cut.retryWake (step : managedStep lib me s (.retryWake task destroyed) = some (out, s')) :
    Cut c s' ∧ out.Spares c := by
  simp only [managedStep] at step
  split at step
  · next options origin found =>
    split at step
    · cases step
      exact ⟨(cut.looping (forall_eraseIdx cut.retries)).removePendingJoin _, fun _ => rfl⟩
    have other := cut.retries ⟨options, false, origin⟩ (List.mem_of_getElem? found)
    split at step <;> cases step
    · exact ⟨cut.looping (forall_set cut.retries other), fun _ => rfl⟩
    · exact ⟨cut, fun _ => rfl⟩
  · cases step

theorem Cut.resumeWake (step : managedStep lib me s (.resumeWake task) = some (out, s')) :
    Cut c s' ∧ out.Spares c := by
  simp only [managedStep] at step
  split at step
  · next entry found =>
    have other := cut.resumes ⟨entry, false⟩ (List.mem_of_getElem? found)
    split at step
    · split at step <;> cases step
      · exact ⟨cut.resuming (forall_set cut.resumes other), fun _ => rfl⟩
      · exact ⟨cut, fun _ => rfl⟩
    · cases step
      exact ⟨cut.resuming (forall_eraseIdx cut.resumes), fun _ => rfl⟩
  · cases step

theorem Cut.resumeReply
    (step : managedStep lib me s (.resumeReply task reply saves) = some (out, s')) :
    Cut c s' ∧ out.Spares c := by
  simp only [managedStep] at step
  split at step
  · next entry found =>
    have other := cut.resumes ⟨entry, true⟩ (List.mem_of_getElem? found)
    split at step <;> cases step
    · next joined =>
      have kept := cut.joinNetwork other joined
      exact ⟨kept.resuming (forall_set kept.resumes other), fun same => absurd same other⟩
    · next joined =>
      have kept := cut.joinNetwork other joined
      exact ⟨kept.resuming (forall_eraseIdx kept.resumes), fun same => absurd same other⟩
  · cases step

theorem Cut.step (step : managedStep lib me s act = some (out, s'))
    (unenrolled : ∀ now receipt, act ≠ .enroll c now receipt) : Cut c s' ∧ out.Spares c := by
  cases act with
  | begin => exact cut.begin step
  | revoke => exact cut.revoke step
  | enroll => exact cut.enroll step (by rintro rfl; exact unenrolled _ _ rfl)
  | retryWake => exact cut.retryWake step
  | resumeWake => exact cut.resumeWake step
  | resumeReply => exact cut.resumeReply step
  | receive controller alpn action | join options =>
    simp only [managedStep] at step
    split at step <;> cases step <;> exact ⟨{ cut with }, fun _ => rfl⟩
  | finish reply saves =>
    simp only [managedStep] at step
    split at step
    · next controller running held =>
      have differs : controller ≠ c := cut.running _ held
      have freed : Cut c { s with running := none } := { cut with running := nofun }
      cases step
      exact ⟨freed.finishAction differs rfl, fun same => absurd same (by simpa using differs)⟩
    · cases step
  | joinReply task reply saves =>
    simp only [managedStep] at step
    split at step <;> cases step
    have taken : Cut c { s with joins := s.joins.eraseIdx task } := { cut with }
    have own : Origin.machine ≠ .controller c := nofun
    exact ⟨taken.joinNetwork own rfl, nofun⟩
  | leave name deletes =>
    cases step
    exact ⟨cut.networks _, nofun⟩
  | retryReply task reply =>
    simp only [managedStep] at step
    split at step <;> cases step
    next options origin found =>
    have other := cut.retries _ (List.mem_of_getElem? found)
    exact ⟨cut.retryReplied found rfl, fun same => absurd same other⟩
  | roster name coordinators | restored name =>
    cases step
    exact ⟨cut.networks _, fun _ => rfl⟩
  | restart running =>
    cases step
    refine ⟨⟨cut.grants, nofun, ?_, nofun, ?_⟩, fun _ => rfl⟩
    · exact fun entry member => cut.markers entry (List.mem_of_mem_filter member)
    · intro resume member
      obtain ⟨entry, kept, rfl⟩ := List.mem_map.mp member
      exact cut.markers entry (List.mem_of_mem_filter kept)

end

/-- Enrolling is the machine's own doing. -/
theorem enroll_spares
    (step : managedStep lib me s (.enroll controller now receipt) = some (out, s')) :
    out.Spares c := by
  simp only [managedStep] at step
  split at step
  · cases step
  · cases step
    nofun

/-- A revoke that has returned leaves nothing of the controller but the joins that wait. -/
theorem cut_of_revoked (revoke : managedStep lib me s (.revoke selector saves) = some (out, s'))
    (revoked : c ∈ out.revoked) (settled : ¬s.Waits (.controller c)) : Cut c s' := by
  obtain ⟨idle, revoke⟩ := Option.ite_none_left_eq_some.1 revoke
  split at revoke
  · cases revoke
    exact absurd revoked List.not_mem_nil
  next kept names ran =>
  split at revoke <;> cases revoke
  · refine ⟨?_, ?_, ?_, ?_, ?_⟩
    · unfold revokeController at ran
      split at ran
      · cases ran
        exact fun _ member => absurd member List.not_mem_nil
      split at ran <;> cases ran
      intro grant member
      rw [List.mem_singleton.mp revoked]
      exact of_decide_eq_true (List.mem_filter.mp member).2
    · intro request held
      exact absurd (Option.isSome_of_mem held) idle
    · exact fun entry member same => settled (.inl ⟨entry, member, same⟩)
    · exact fun retry member same => settled (.inr (.inl ⟨retry, member, same⟩))
    · exact fun resume member same => settled (.inr (.inr ⟨resume, member, same⟩))
  · exact absurd revoked List.not_mem_nil

end Steps

/-! ## Every run -/

section Runs

variable (lib : ManagementLib) (me : EndpointId)

/-- The machine acts, whatever controllers and networks send it. -/
abbrev ManagedRuns := Run fun (s : Managed) act out s' => managedStep lib me s act = some (out, s')

variable {lib me}

/-- The controller that the user has the machine enroll with. -/
def ManagedAct.enrolls : ManagedAct → Option EndpointId
  | .enroll controller _ _ => some controller
  | _ => none

theorem Cut.run (cut : Cut c s) (run : ManagedRuns lib me s h s')
    (unenrolled : ∀ e ∈ h, e.act.enrolls ≠ some c) :
    Cut c s' := by
  refine run.invariant unenrolled cut fun _ _ step unenrolled cut => (cut.step step ?_).1
  rintro now receipt rfl
  exact unenrolled rfl

/-- A revoke of the controller has returned, and no join that it asked for was waiting for
approval. Whatever the controller has sent or sends, nothing on the machine changes for it
until the machine is enrolled with it again. -/
theorem revoked_controller_stopped {s s' last : Managed} {selector : Option Name} {saves : Bool}
    {out : ManagedOut} {c : EndpointId}
    (revoke : managedStep lib me s (.revoke selector saves) = some (out, s'))
    (revoked : c ∈ out.revoked) (settled : ¬s.Waits (.controller c))
    {h pre post : List (Entry Managed ManagedAct ManagedOut)}
    {e : Entry Managed ManagedAct ManagedOut} (run : ManagedRuns lib me s' h last)
    (split : h = pre ++ e :: post) (unenrolled : ∀ earlier ∈ pre, earlier.act.enrolls ≠ some c) :
    e.out.origin = .controller c → e.out.changes = [] := by
  obtain ⟨before, step, -⟩ := run.split split
  have cut := (cut_of_revoked revoke revoked settled).run before unenrolled
  by_cases enrolls : ∃ now receipt, e.act = .enroll c now receipt
  · obtain ⟨now, receipt, act⟩ := enrolls
    rw [act] at step
    exact enroll_spares step
  · exact (cut.step step fun now receipt same => enrolls ⟨now, receipt, same⟩).2

end Runs

/-- A stand-in for the other code: every signature verifies, every key is a point. -/
def plainLib : ManagementLib where
  isKey := fun _ => true
  blake3 := fun _ => 0
  verifies := fun _ _ _ => true
  toText := fun id => (toString id.toNat).toList
  fmtShort := fun id => (toString id.toNat).toList
  codeError := fun _ => []

/-- A machine enrolled with one controller, and nothing else. -/
def enrolledMachine (controller : EndpointId) : Managed :=
  ⟨[⟨controller, 0, none⟩], [], [], false, [], none, [], [], []⟩

/-- The controller 7 asks the machine to join its network 9. -/
def joinNine : ManagementAction :=
  .join (encodeInviteCode plainLib.blake3 9 7 repeatedSecret) "lab".toList "box".toList false false

def plainly : Surroundings := ⟨.ok "box".toList, .ok (), .ok none⟩

/-- The machine is revoked of its controller while a request of that one is on its way. -/
def cutMachine : Managed := { enrolledMachine 7 with controllers := [] }

def lateRequests : List ManagedAct :=
  [.receive 7 .v3 joinNine, .begin 0 plainly, .receive 7 .v2 (.leave "lab".toList)]

theorem late_requests_stopped :
    (∃ e ∈ (executed (managedStep plainLib 1) cutMachine lateRequests).1,
      e.out.reply = some (7, .unauthorized)) ∧
    ∀ pre e post, (executed (managedStep plainLib 1) cutMachine lateRequests).1 = pre ++ e :: post →
      e.out.origin = .controller 7 → e.out.changes = [] := by
  refine ⟨by decide +kernel, fun pre e post split => ?_⟩
  have revoke : managedStep plainLib 1 (enrolledMachine 7) (.revoke none true) =
      some (⟨none, .machine, [.controllerGrant 7], [7]⟩, cutMachine) := rfl
  have unenrolled : ∀ e ∈ (executed (managedStep plainLib 1) cutMachine lateRequests).1,
      e.act.enrolls ≠ some 7 := by decide +kernel
  exact revoked_controller_stopped revoke (by decide) (by decide)
    (run_executed lateRequests (by decide +kernel)) split fun earlier member =>
      unenrolled earlier (split ▸ List.mem_append_left _ member)

/-- The join has been queued by the network's coordinator. -/
def queuedMachine : Managed :=
  { enrolledMachine 7 with
    pendingJoins := [⟨9, some "lab".toList, .controller 7⟩]
    retries := [⟨⟨9, some "lab".toList, some "box".toList, some repeatedSecret,
      some (.required 7), false, false⟩, false, .controller 7⟩] }

def queueJoin : List ManagedAct :=
  [.receive 7 .v3 joinNine, .begin 0 plainly, .finish .pending true]

def loopGoesOn : List ManagedAct :=
  [.retryWake 0 false, .retryReply 0 (.welcomed "lab".toList [7] none)]

def daemonResumes : List ManagedAct :=
  [.restart [], .resumeWake 0, .resumeReply 0 (.welcomed "lab".toList [7] none) true]

/-- After the revoke the loop joins the network, and so does the next daemon. -/
theorem revoked_join_lands :
    (execute (managedStep plainLib 1) (enrolledMachine 7) queueJoin).map Prod.snd =
      some queuedMachine ∧
    ∃ out s', managedStep plainLib 1 queuedMachine (.revoke none true) = some (out, s') ∧
      7 ∈ out.revoked ∧ ∀ acts ∈ [loopGoesOn, daemonResumes], ∃ h last,
        execute (managedStep plainLib 1) s' acts = some (h, last) ∧
        ManagedRuns plainLib 1 s' h last ∧
        ∃ e ∈ h, e.out.origin = .controller 7 ∧ e.out.changes = [.joined 9] := by
  have queued : (execute (managedStep plainLib 1) (enrolledMachine 7) queueJoin).map Prod.snd =
      some queuedMachine := by decide +kernel
  have revoke : managedStep plainLib 1 queuedMachine (.revoke none true) =
      some (⟨none, .machine, [.controllerGrant 7], [7]⟩,
        { queuedMachine with controllers := [] }) := rfl
  refine ⟨queued, _, _, revoke, by decide, ?_⟩
  have lands : ∀ acts ∈ [loopGoesOn, daemonResumes],
      ∃ ran ∈ execute (managedStep plainLib 1) { queuedMachine with controllers := [] } acts,
        ∃ e ∈ ran.1, e.out.origin = .controller 7 ∧ e.out.changes = [.joined 9] := by
    decide +kernel
  intro acts member
  obtain ⟨⟨h, last⟩, ran, joins⟩ := lands acts member
  exact ⟨h, last, ran, run_execute acts ran, joins⟩

end Rayfish.Management
