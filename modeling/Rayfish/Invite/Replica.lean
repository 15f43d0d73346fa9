import Rayfish.Invite.Gossip
import Rayfish.Mesh.UniqueNames

/-!
# One invite at two coordinators

A coordinator that did not mint an invite knows it by what was gossiped: the hash and an
expiry counted from the time of the gossip. The name bound to the invite stays with the
coordinator that minted it, and so does its revocation.

* `presentInvite`: what a secret is worth at one ledger, the name included;
* `Desk.redeemInvite_outcome`: it is what the admission does with it;
* `InviteNet.Copies`: what the ledgers of a network hold of one invite along a run;
* `invite_same_iff`: when the secret is worth the same at both;
* `bound_name_not_gossiped`: a revoked invite with a bound name admits elsewhere, under a
  name of the joiner's choice.
-/

namespace Rayfish

open Lib

/-! ## Presenting a secret -/

inductive JoinOutcome where
  | refused
  /-- The name is refused. -/
  | clash (reason : List Char)
  | named (hostname : Option Name)

/-- The name an authorised joiner is admitted under. -/
def settleName (bound claimed : Option Name) (taken : Multiset Name) : JoinOutcome :=
  match bound.orElse fun _ => claimed with
  | none => .named none
  | some desired =>
    match admissionHostname desired taken bound.isSome with
    | .ok name => .named (some name)
    | .error reason => .clash reason

/-- A joiner presents a secret and asks for the name `claimed`. -/
def presentInvite (ledger : InviteStore) (hash : Name) (by_ : EndpointId) (now : Nat)
    (claimed : Option Name) (taken : Multiset Name) : JoinOutcome :=
  match ledger.redeem hash by_ now with
  | .error _ => .refused
  | .ok (bound, _) => settleName bound claimed taken

/-- The answer a joiner gets at the desk, from its frame to its name. -/
inductive Desk.Answers {Hash : Type} [DecidableEq Hash] (s : Desk Hash) (task : Nat)
    (env : Surroundings Hash) (peer : EndpointId) (secret : Name) (hostname : Option Name)
    (cert : Option DeviceCert) : JoinOutcome → Prop
  | refused (refusal : InviteRefusal) (s' : Desk Hash)
      (answer : s.redeemInvite task env peer secret hostname cert =
        (.denied (.inviteRejected refusal), s')) :
      Answers s task env peer secret hostname cert .refused
  | clash (request : AdmissionRequest) (reason : List Char) (s' : Desk Hash)
      (answer : s.redeemInvite task env peer secret hostname cert = (.authorised request, s'))
      (denied : (s'.validateAdmission task request).1 = .denied (.hostname reason)) :
      Answers s task env peer secret hostname cert (.clash reason)
  | named (request : AdmissionRequest) (name : Option Name) (s' : Desk Hash)
      (answer : s.redeemInvite task env peer secret hostname cert = (.authorised request, s'))
      (settled : (s'.validateAdmission task request).1 = .validated name) :
      Answers s task env peer secret hostname cert (.named name)

/-- A one-time secret, presented while the ledger can be read and written, has the outcome
`presentInvite` computes. -/
theorem Desk.redeemInvite_outcome {Hash : Type} [DecidableEq Hash] (s : Desk Hash) (task : Nat)
    (env : Surroundings Hash) (peer : EndpointId) (secret : Name) (hostname : Option Name)
    (cert : Option DeviceCert) (reads : env.disk.configReads) (writes : env.disk.configFault = none)
    (single : validateReusableKey s.node.net.group.reusableKeys secret env.now = none) :
    s.Answers task env peer secret hostname cert
      (presentInvite s.invites secret peer env.now hostname (takenHostnames s.members peer)) := by
  unfold presentInvite
  cases redeemed : s.invites.redeem secret peer env.now with
  | error refusal =>
    refine .refused refusal s ?_
    simp [redeemInvite, redeem, reads, redeemed, single]
  | ok result =>
    obtain ⟨bound, ledger⟩ := result
    have answer : s.redeemInvite task env peer secret hostname cert =
        { s with invites := ledger }.authorise task
          ⟨peer, bound.orElse fun _ => hostname, cert, false, bound.isSome, some secret⟩ := by
      simp [redeemInvite, redeem, reads, redeemed, writes]
    dsimp only [settleName]
    split
    · next unnamed =>
      refine .named _ _ _ answer ?_
      simp only [validateAdmission, unnamed]
    · next desired wanted =>
      split
      · next name settled =>
        refine .named _ _ _ answer ?_
        rw [Desk.members] at settled
        simp only [validateAdmission, wanted, setTask, Desk.members, settled]
      · next reason failed =>
        refine .clash _ _ _ answer ?_
        rw [Desk.members] at failed
        simp only [validateAdmission, wanted, setTask, Desk.members, failed]

theorem Desk.redeemInvite_outcome_bound :
    boundDesk.Answers 0 calm 2 ['x'] none none (.named (some ['w', 'e', 'b'])) :=
  boundDesk.redeemInvite_outcome 0 calm 2 ['x'] none none rfl rfl rfl

/-! ## What the ledgers hold of one invite -/

/-- One invite: who minted it, when, when it was gossiped, and the name bound to it. -/
structure Issue where
  minter : EndpointId
  hash : Name
  ttl : Nat
  bound : Option Name
  mintedAt : Nat
  sharedAt : Nat

namespace Issue

/-- The expiry in the ledger of the coordinator that minted it. -/
def expires (i : Issue) : Nat := saturatingAdd i.mintedAt i.ttl

/-- The expiry the others are told. -/
def toldExpires (i : Issue) : Nat := saturatingAdd i.sharedAt i.ttl

/-- The secret is minted and gossiped only as this issue says. -/
structure Only (i : Issue) (h : List InviteEntry) : Prop where
  minted : ∀ e ∈ h, ∀ c ttl bound now disk, e.act = ⟨c, .mint i.hash ttl bound now disk⟩ →
    c = i.minter ∧ ttl = i.ttl ∧ bound = i.bound ∧ now = i.mintedAt
  shared : ∀ e ∈ h, ∀ c unshared now, e.act = ⟨c, .share unshared now⟩ →
    unshared.hash = i.hash → now = i.sharedAt

end Issue

/-- Nobody has heard of the secret. -/
structure InviteNet.Unheard (s : InviteNet) (hash : Name) : Prop where
  unlisted : ∀ c, (s.clerks c).ledger.find hash = none
  unshared : ∀ c, ∀ u ∈ (s.clerks c).unshared, u.hash ≠ hash
  unsent : ∀ id expires, .inviteShare id hash expires ∉ s.sent

/-- What the ledger of `c` says of the invite, whatever its status. -/
def Issue.Reads (i : Issue) (c : EndpointId) (invite : Invite) : Prop :=
  (c = i.minter ∧ invite.hostname = i.bound ∧ invite.expires = i.expires) ∨
    (c ≠ i.minter ∧ invite.hostname = none ∧ invite.expires = i.toldExpires)

/-- What is known of an issue, and where. -/
structure InviteNet.Copies (s : InviteNet) (i : Issue) : Prop where
  listed : ∀ c invite, (s.clerks c).ledger.find i.hash = some invite → i.Reads c invite
  unshared : ∀ c, ∀ u ∈ (s.clerks c).unshared, u.hash = i.hash →
    u.ttl = i.ttl ∧ ((s.clerks i.minter).ledger.find i.hash).isSome
  sent : ∀ id expires, .inviteShare id i.hash expires ∈ s.sent →
    expires = i.toldExpires ∧ ((s.clerks i.minter).ledger.find i.hash).isSome

/-! ## One step -/

section

variable {sent gossip : List GossipMsg} {clerk clerk' : Clerk} {op : InviteOp} {out : InviteOut}
  {hash : Name}

variable (ran : InviteOp.Ran sent clerk op out clerk' gossip)

include ran

theorem InviteOp.Ran.listed (listed : (clerk.ledger.find hash).isSome) :
    (clerk'.ledger.find hash).isSome := by
  cases ran.found hash with
  | same same => rwa [same]
  | minted _ _ _ _ _ _ after | recorded _ _ _ _ _ _ _ after | revoked _ _ _ _ _ _ after
  | redeemed _ _ _ _ _ _ _ after | restored _ _ _ _ _ _ _ _ after | burned _ _ _ _ _ _ after =>
    rw [after]
    rfl

/-- A new invite to gossip has been minted here and is in the ledger. -/
theorem InviteOp.Ran.unshared (waits : u ∈ clerk'.unshared) :
    u ∈ clerk.unshared ∨ ∃ bound now disk, op = .mint u.hash u.ttl bound now disk ∧
      (clerk'.ledger.find u.hash).isSome := by
  cases ran with
  | mints minted ttl now bound disk =>
    rcases List.mem_cons.mp waits with rfl | before
    · refine .inr ⟨bound, now, disk, rfl, ?_⟩
      rw [InviteStore.mint, InviteStore.find_append]
      simp [Invite.new]
    · exact .inl before
  | shares => exact .inl (List.mem_of_mem_erase waits)
  | restarts => cases waits
  | _ => exact .inl waits

/-- A share that goes out is of an invite that was waiting for it. -/
theorem InviteOp.Ran.shared {id : Name} {expires : Nat}
    (told : .inviteShare id hash expires ∈ gossip) :
    ∃ u ∈ clerk.unshared, ∃ now, op = .share u now ∧ u.hash = hash ∧
      expires = saturatingAdd now u.ttl := by
  cases ran with
  | shares u now waits =>
    cases List.mem_singleton.mp told
    exact ⟨u, waits, now, rfl, rfl, rfl⟩
  | admits => cases List.mem_singleton.mp told
  | _ => cases told

end

variable {i : Issue} {s₀ s s' : InviteNet} {a : InviteAct} {out : InviteOut}
  {h : List InviteEntry} {c : EndpointId}

theorem InviteNet.Unheard.copies (unheard : s.Unheard i.hash) : s.Copies i where
  listed c invite listed := by cases (unheard.unlisted c).symm.trans listed
  unshared c u waits same := absurd same (unheard.unshared c u waits)
  sent id expires told := absurd told (unheard.unsent id expires)

/-- What a section leaves under the hash reads as the issue says. -/
theorem InviteNet.Copies.reads (copies : s.Copies i)
    (found : Found s.sent (s.clerks c) a.op i.hash (some invite))
    (minted : ∀ ttl bound now disk, a.op = .mint i.hash ttl bound now disk →
      c = i.minter ∧ ttl = i.ttl ∧ bound = i.bound ∧ now = i.mintedAt) :
    i.Reads c invite := by
  cases found with
  | same same => exact copies.listed c invite same.symm
  | minted ttl now bound disk act _ after =>
    obtain ⟨here, rfl, rfl, rfl⟩ := minted ttl bound now disk act
    cases after
    exact .inl ⟨here, rfl, rfl⟩
  | recorded id expires now disk _ told fresh after =>
    obtain ⟨rfl, listed⟩ := copies.sent id expires told
    cases after
    refine .inr ⟨?_, rfl, rfl⟩
    rintro rfl
    rw [fresh] at listed
    cases listed
  | revoked _ _ _ _ listed _ after | redeemed _ _ _ _ _ listed _ after
  | restored _ _ _ _ _ _ listed _ after | burned _ _ _ _ listed _ after =>
    have reads := copies.listed c _ listed
    cases after
    exact reads

theorem InviteNet.Copies.step (copies : s.Copies i) (step : inviteStep s a out s')
    (minted : ∀ ttl bound now disk, a.op = .mint i.hash ttl bound now disk →
      a.coordinator = i.minter ∧ ttl = i.ttl ∧ bound = i.bound ∧ now = i.mintedAt)
    (shared : ∀ u now, a.op = .share u now → u.hash = i.hash → now = i.sharedAt) :
    s'.Copies i := by
  have stays : ((s.clerks i.minter).ledger.find i.hash).isSome →
      ((s'.clerks i.minter).ledger.find i.hash).isSome :=
    InviteNet.clerk_step (P := fun clerk => (clerk.ledger.find i.hash).isSome)
      (fun before ran => ran.listed before) step
  obtain ⟨clerk', gossip, ran, rfl⟩ := InviteNet.step_cases step
  refine ⟨fun c invite listed => ?_, fun c u waits same => ?_, fun id expires told => ?_⟩
  · dsimp only at listed
    rcases eq_or_ne c a.coordinator with rfl | elsewhere
    · rw [Function.update_self] at listed
      exact copies.reads (listed ▸ ran.found i.hash) minted
    · rw [Function.update_of_ne elsewhere] at listed
      exact copies.listed c invite listed
  · dsimp only at waits
    rcases eq_or_ne c a.coordinator with rfl | elsewhere
    · rw [Function.update_self] at waits
      rcases ran.unshared waits with before | ⟨bound, now, disk, act, listed⟩
      · obtain ⟨ttl, listed⟩ := copies.unshared _ u before same
        exact ⟨ttl, stays listed⟩
      · rw [same] at act listed
        obtain ⟨here, ttl, -, -⟩ := minted _ _ _ _ act
        refine ⟨ttl, ?_⟩
        dsimp only
        rwa [← here, Function.update_self]
    · rw [Function.update_of_ne elsewhere] at waits
      obtain ⟨ttl, listed⟩ := copies.unshared c u waits same
      exact ⟨ttl, stays listed⟩
  · rcases List.mem_append.mp told with new | before
    · obtain ⟨u, waits, now, act, same, rfl⟩ := ran.shared new
      obtain ⟨ttl, listed⟩ := copies.unshared _ u waits same
      rw [ttl, shared u now act same]
      exact ⟨rfl, stays listed⟩
    · obtain ⟨expiry, listed⟩ := copies.sent id expires before
      exact ⟨expiry, stays listed⟩

/-! ## Runs -/

theorem run_copies (unheard : s₀.Unheard i.hash) (run : Run inviteStep s₀ h s) (only : i.Only h) :
    s.Copies i := by
  induction run with
  | nil => exact unheard.copies
  | @snoc h s s' a out run step ih =>
    have copies := ih
      ⟨fun e member => only.minted e (List.mem_append_left _ member),
        fun e member => only.shared e (List.mem_append_left _ member)⟩
    have last : (⟨s, a, out, s'⟩ : InviteEntry) ∈ h ++ [⟨s, a, out, s'⟩] := mem_snoc
    refine copies.step step (fun ttl bound now disk act => ?_) (fun u now act => ?_)
    · exact only.minted _ last a.coordinator ttl bound now disk (by rw [← act])
    · exact only.shared _ last a.coordinator u now (by rw [← act])

/-- What is listed stays listed. -/
theorem listed_since {hash : Name} (run : Run inviteStep s₀ h s) (member : e ∈ h)
    (listed : inviteStep e.before e.act e.out e.after →
      ((e.after.clerks c).ledger.find hash).isSome) :
    ((s.clerks c).ledger.find hash).isSome := by
  obtain ⟨pre, post, rfl⟩ := List.append_of_mem member
  obtain ⟨-, step, after⟩ := run.split rfl
  exact InviteNet.clerk_run (P := fun clerk => (clerk.ledger.find hash).isSome)
    (fun before ran => ran.listed before) after (listed step)

/-- `c` has minted the invite, and has handed out its code. -/
def Issue.MintedIn (i : Issue) (h : List InviteEntry) : Prop :=
  ∃ e ∈ h, ∃ disk, e.act = ⟨i.minter, .mint i.hash i.ttl i.bound i.mintedAt disk⟩ ∧ e.out = .minted

/-- `c` has handled the gossip about the invite, with a ledger it could read and write and
no other invite under the same id. -/
def Issue.ToldIn (i : Issue) (c : EndpointId) (h : List InviteEntry) : Prop :=
  ∃ e ∈ h, ∃ id expires now disk,
    e.act = ⟨c, .receive (.inviteShare id i.hash expires) true now disk⟩ ∧
    disk.configReads ∧ disk.configFault ≠ some false ∧
    ∀ invite ∈ (e.before.clerks c).ledger, invite.id ≠ id

theorem Issue.MintedIn.listed (minted : i.MintedIn h) (run : Run inviteStep s₀ h s) :
    ((s.clerks i.minter).ledger.find i.hash).isSome := by
  obtain ⟨e, member, disk, act, answer⟩ := minted
  refine listed_since run member fun step => ?_
  rw [act, answer] at step
  obtain ⟨clerk', gossip, ran, after⟩ := InviteNet.step_cases step
  rw [after]
  dsimp only
  rw [Function.update_self]
  cases ran with
  | mints =>
    rw [InviteStore.mint, InviteStore.find_append]
    simp [Invite.new]

theorem Clerk.listed_of_share {clerk : Clerk} {disk : Disk} {id hash : Name} {expires now : Nat}
    (reads : disk.configReads) (writes : disk.configFault ≠ some false)
    (free : ∀ invite ∈ clerk.ledger, invite.id ≠ id) :
    ((clerk.handleInviteShare disk id hash expires now).ledger.find hash).isSome := by
  have fresh : ¬ clerk.ledger.any (·.id = id) := by simpa using free
  unfold Clerk.handleInviteShare
  rw [if_pos reads, saveLedger_writes writes, InviteStore.recordShared, if_neg fresh,
    InviteStore.find_append]
  simp

theorem Issue.ToldIn.listed (told : i.ToldIn c h) (run : Run inviteStep s₀ h s) :
    ((s.clerks c).ledger.find i.hash).isSome := by
  obtain ⟨e, member, id, expires, now, disk, act, reads, writes, free⟩ := told
  refine listed_since run member fun step => ?_
  rw [act] at step
  obtain ⟨⟨out', clerk', gossip⟩, ran, same⟩ := Option.map_eq_some_iff.mp step
  cases (Option.ite_none_right_eq_some.1 ran).2
  rw [← (Prod.mk.inj same).2]
  dsimp only
  rw [Function.update_self]
  exact Clerk.listed_of_share reads writes free

/-! ## The same invite -/

/-- The secret of an unused invite is worth its name unless it is revoked or expired. -/
theorem presentInvite_unused {ledger : InviteStore} {hash : Name} {invite : Invite}
    (listed : ledger.find hash = some invite)
    (unused : ∀ by_ at_, invite.status ≠ .redeemed by_ at_) (by_ : EndpointId) (now : Nat)
    (claimed : Option Name) (taken : Multiset Name) :
    presentInvite ledger hash by_ now claimed taken =
      if invite.status = .revoked ∨ invite.expires ≤ now then .refused
      else settleName invite.hostname claimed taken := by
  unfold presentInvite InviteStore.redeem
  rw [listed]
  dsimp only
  cases status : invite.status with
  | redeemed by_ at_ => exact absurd status (unused by_ at_)
  | revoked => simp
  | pending =>
    by_cases late : invite.expires ≤ now
    · simp [late]
    · simp [late]

theorem settleName_ne_refused (bound claimed : Option Name) (taken : Multiset Name) :
    settleName bound claimed taken ≠ .refused := by
  unfold settleName
  split
  · nofun
  · split <;> nofun

/-- A bound name shows when the joiner claims none. -/
theorem settleName_same_iff :
    (∀ claimed taken, settleName none claimed taken = settleName bound claimed taken) ↔
      bound = none := by
  constructor
  · intro same
    cases bound with
    | none => rfl
    | some name =>
      have unnamed : JoinOutcome.named none = settleName (some name) none ∅ := same none ∅
      simp only [settleName, Option.orElse_some] at unnamed
      split at unnamed <;> cases unnamed
  · rintro rfl claimed taken
    rfl

/-- The ledger of `c` lists the invite as used. -/
def InviteNet.Used (s : InviteNet) (c : EndpointId) (hash : Name) : Prop :=
  ∃ invite by_ at_, (s.clerks c).ledger.find hash = some invite ∧ invite.status = .redeemed by_ at_

/-- The ledger of `c` lists the invite as revoked. -/
def InviteNet.Revoked (s : InviteNet) (c : EndpointId) (hash : Name) : Prop :=
  ∃ invite, (s.clerks c).ledger.find hash = some invite ∧ invite.status = .revoked

/-- Two ledgers agree on every joiner if both refuse or both settle the same names. -/
theorem outcome_same_iff [Decidable p] [Decidable q] :
    (∀ claimed taken, (if p then .refused else settleName bound claimed taken) =
      if q then .refused else settleName bound' claimed taken) ↔
    (p ∧ q) ∨ (¬ p ∧ ¬ q ∧
      ∀ claimed taken, settleName bound claimed taken = settleName bound' claimed taken) := by
  by_cases hp : p <;> by_cases hq : q
  · simp [hp, hq]
  · simpa [hp, hq] using ⟨none, ∅, (settleName_ne_refused bound' none ∅).symm⟩
  · simpa [hp, hq] using ⟨none, ∅, settleName_ne_refused bound none ∅⟩
  · simp [hp, hq]

/-- **One invite at two coordinators.** An unused invite, whose gossip the other
coordinator has recorded, is worth the same there as at the coordinator that minted it
exactly if neither honours it, or both do and no name is bound to it. -/
theorem invite_same_iff {other : EndpointId} (differs : other ≠ i.minter)
    (unheard : s₀.Unheard i.hash) (run : Run inviteStep s₀ h s) (only : i.Only h)
    (minted : i.MintedIn h) (told : i.ToldIn other h) (unused : ¬ s.Used i.minter i.hash)
    (unused' : ¬ s.Used other i.hash) (kept : ¬ s.Revoked other i.hash) (now : Nat) :
    (∀ by_ claimed taken, presentInvite (s.clerks other).ledger i.hash by_ now claimed taken =
      presentInvite (s.clerks i.minter).ledger i.hash by_ now claimed taken) ↔
    (i.toldExpires ≤ now ∧ (s.Revoked i.minter i.hash ∨ i.expires ≤ now)) ∨
      (now < i.toldExpires ∧ ¬ s.Revoked i.minter i.hash ∧ now < i.expires ∧ i.bound = none) := by
  have copies := run_copies unheard run only
  obtain ⟨own, listed⟩ := Option.isSome_iff_exists.mp (minted.listed run)
  obtain ⟨copy, listed'⟩ := Option.isSome_iff_exists.mp (told.listed run)
  obtain ⟨-, hostname, expires⟩ := (copies.listed _ _ listed).resolve_right fun reads => reads.1 rfl
  obtain ⟨-, hostname', expires'⟩ :=
    (copies.listed _ _ listed').resolve_left fun reads => differs reads.1
  have here := presentInvite_unused listed fun by_ at_ used =>
    unused ⟨own, by_, at_, listed, used⟩
  have there := presentInvite_unused listed' fun by_ at_ used =>
    unused' ⟨copy, by_, at_, listed', used⟩
  have revoked : s.Revoked i.minter i.hash ↔ own.status = .revoked := by
    constructor
    · rintro ⟨invite, again, revoked⟩
      cases listed.symm.trans again
      exact revoked
    · exact fun revoked => ⟨own, listed, revoked⟩
  have standing : copy.status ≠ .revoked := fun revoked => kept ⟨copy, listed', revoked⟩
  simp only [here, there, forall_const, outcome_same_iff, hostname, hostname', expires, expires',
    settleName_same_iff, standing, false_or, ← revoked, not_or, not_le, and_assoc]

theorem InviteNet.start_unheard (hash : Name) : InviteNet.start.Unheard hash where
  unlisted _ := rfl
  unshared _ _ := nofun
  unsent _ _ := nofun

/-- An invite without a bound name, shared and not revoked, is worth the same at both. -/
theorem invite_same_iff_unbound :
    ∃ h s, Run inviteStep .start h s ∧ ∀ by_ claimed taken,
      presentInvite (s.clerks 2).ledger ['k'] by_ 50 claimed taken =
        presentInvite (s.clerks 1).ledger ['k'] by_ 50 claimed taken := by
  have run := run_execute (f := InviteAct.run) (s := .start)
    [⟨1, .mint ['k'] 100 none 0 soundDisk⟩, ⟨1, .share ⟨['k'], ['k'], 100⟩ 10⟩,
      ⟨2, .receive (.inviteShare ['k'] ['k'] 110) true 20 soundDisk⟩] rfl
  refine ⟨_, _, run, (invite_same_iff (i := ⟨1, ['k'], 100, none, 0, 10⟩) (by decide)
    (InviteNet.start_unheard _) run ?_ ?_ ?_ ?_ ?_ ?_ 50).mpr
      (.inr ⟨by decide, ?_, by decide, rfl⟩)⟩
  · constructor
    · intro e member c ttl bound now disk act
      simp only [List.mem_cons, List.not_mem_nil, or_false] at member
      rcases member with rfl | rfl | rfl <;> cases act
      exact ⟨rfl, rfl, rfl, rfl⟩
    · intro e member c unshared now act
      simp only [List.mem_cons, List.not_mem_nil, or_false] at member
      rcases member with rfl | rfl | rfl <;> cases act
      exact fun _ => rfl
  · exact ⟨_, List.mem_of_getElem? (i := 0) rfl, soundDisk, rfl, rfl⟩
  · exact ⟨_, List.mem_of_getElem? (i := 2) rfl, ['k'], 110, 20, soundDisk, rfl, rfl, nofun, nofun⟩
  · rintro ⟨invite, by_, at_, listed, used⟩
    cases listed
    cases used
  · rintro ⟨invite, by_, at_, listed, used⟩
    cases listed
    cases used
  · rintro ⟨invite, listed, revoked⟩
    cases listed
    cases revoked
  · rintro ⟨invite, listed, revoked⟩
    cases listed
    cases revoked

/-- The invite is bound to `web`. The coordinator that minted it admits under that name
only, the other one under the name the joiner asks for; and when the invite is revoked, the
other one still does. -/
theorem bound_name_not_gossiped :
    ∃ h s e, Run inviteStep .start h s ∧ h[3]? = some e ∧
      e.act = ⟨1, .revoke ['k'] soundDisk⟩ ∧
      presentInvite (e.before.clerks 1).ledger ['k'] 7 50 (some ['d', 'b']) ∅ =
        .named (some ['w', 'e', 'b']) ∧
      presentInvite (e.before.clerks 2).ledger ['k'] 7 50 (some ['d', 'b']) ∅ =
        .named (some ['d', 'b']) ∧
      presentInvite (e.after.clerks 1).ledger ['k'] 7 50 (some ['d', 'b']) ∅ = .refused ∧
      presentInvite (e.after.clerks 2).ledger ['k'] 7 50 (some ['d', 'b']) ∅ =
        .named (some ['d', 'b']) := by
  have run := run_execute (f := InviteAct.run) (s := .start)
    [⟨1, .mint ['k'] 100 (some ['w', 'e', 'b']) 0 soundDisk⟩, ⟨1, .share ⟨['k'], ['k'], 100⟩ 10⟩,
      ⟨2, .receive (.inviteShare ['k'] ['k'] 110) true 20 soundDisk⟩,
      ⟨1, .revoke ['k'] soundDisk⟩] rfl
  exact ⟨_, _, _, run, rfl, rfl, rfl, rfl, rfl, rfl⟩

end Rayfish
