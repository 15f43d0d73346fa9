import Mathlib.Logic.Function.Basic
import Rayfish.Invite
import Rayfish.Lib.Run
import Rayfish.Mesh.State

/-!
# Invites among coordinators

Every coordinator of a network keeps a ledger of its own. A minted invite is gossiped to
the others by its hash, and so is its use once an admission stands. The network may hold
a message back, deliver it late or several times, and a restart drops whatever was under
way. A redemption has three sections: the burn under the ledger's lock, the admission,
and then either the restore or the gossip.

* `InviteOp.Ran`, `Found`: what one section does to a coordinator, and to the entry under
  a hash;
* `spent_stays_spent`: news of a use that meets a listed invite, with no redemption of it
  under way here, is final;
* `redeems_of_unsettled`, `used_before_shared`: other news is lost;
* `invite_ledger`: what one coordinator's ledger keeps along every run.
-/

namespace Rayfish

open Lib InviteStore

/-! ## The coordinators -/

inductive GossipMsg where
  | inviteShare (id hash : Name) (expires : Nat)
  | inviteUsed (hash : Name)
  deriving DecidableEq

/-- A minted invite that the others have not been told of. -/
structure Unshared where
  id : Name
  hash : Name
  ttl : Nat
  deriving DecidableEq

/-- One coordinator, as far as its invites go. -/
structure Clerk where
  ledger : InviteStore
  unshared : List Unshared
  /-- The secrets burned here whose admission is under way. -/
  admitting : List Name

structure InviteNet where
  clerks : EndpointId → Clerk
  /-- Every message sent so far; it may arrive anywhere, any number of times. -/
  sent : List GossipMsg

/-- What a coordinator does in one section. -/
inductive InviteOp where
  | mint (hash : Name) (ttl : Nat) (hostname : Option Name) (now : Nat) (disk : Disk)
  /-- Gossip a minted invite; its lifetime is counted from now. -/
  | share (invite : Unshared) (now : Nat)
  | revoke (id : Name) (disk : Disk)
  | redeem (hash : Name) (by_ : EndpointId) (now : Nat) (disk : Disk)
  /-- The admission is denied. -/
  | denied (hash : Name) (disk : Disk)
  /-- The admission stands. -/
  | admitted (hash : Name)
  /-- `trusted`: the sender is a coordinator in the roster held here. -/
  | receive (msg : GossipMsg) (trusted : Bool) (now : Nat) (disk : Disk)
  | restart

structure InviteAct where
  coordinator : EndpointId
  op : InviteOp

inductive InviteOut where
  | minted
  | shared
  | revoked
  | notRevoked (refusal : RevokeRefusal)
  | redeemed (bound : Option Name)
  | refused (refusal : InviteRefusal)
  | unavailable
  | done

/-- Save a changed ledger: whether that is reported to have worked, and what is on disk. -/
def saveLedger (disk : Disk) (old new : InviteStore) : Bool × InviteStore :=
  match disk.configFault with
  | none => (true, new)
  | some true => (false, new)
  | some false => (false, old)

namespace Clerk

variable (clerk : Clerk) (disk : Disk) (hash : Name)

def mint (ttl : Nat) (hostname : Option Name) (now : Nat) : InviteOut × Clerk :=
  if disk.configReads then
    match saveLedger disk clerk.ledger (clerk.ledger.mint hash ttl hostname now) with
    | (true, ledger) =>
      (.minted, { clerk with
        ledger := ledger
        unshared := ⟨hash.take 8, hash, ttl⟩ :: clerk.unshared })
    | (false, ledger) => (.unavailable, { clerk with ledger := ledger })
  else (.unavailable, clerk)

def revoke (id : Name) : InviteOut × Clerk :=
  if disk.configReads then
    match clerk.ledger.revoke id with
    | .error refusal => (.notRevoked refusal, clerk)
    | .ok ledger =>
      match saveLedger disk clerk.ledger ledger with
      | (true, ledger) => (.revoked, { clerk with ledger := ledger })
      | (false, ledger) => (.unavailable, { clerk with ledger := ledger })
  else (.unavailable, clerk)

def redeem (by_ : EndpointId) (now : Nat) : InviteOut × Clerk :=
  if disk.configReads then
    match clerk.ledger.redeem hash by_ now with
    | .error refusal => (.refused refusal, clerk)
    | .ok (bound, ledger) =>
      match saveLedger disk clerk.ledger ledger with
      | (true, ledger) =>
        (.redeemed bound, { clerk with ledger := ledger, admitting := hash :: clerk.admitting })
      | (false, ledger) => (.refused .unavailable, { clerk with ledger := ledger })
  else (.refused .unavailable, clerk)

/-- Put the invite back after a denial. -/
def restore : Clerk :=
  { clerk with
    ledger :=
      if disk.configReads then (saveLedger disk clerk.ledger (clerk.ledger.restore hash)).2
      else clerk.ledger
    admitting := clerk.admitting.erase hash }

def handleInviteShare (id hash : Name) (expires now : Nat) : Clerk :=
  { clerk with
    ledger :=
      if disk.configReads then
        (saveLedger disk clerk.ledger (clerk.ledger.recordShared id hash expires now)).2
      else clerk.ledger }

def handleInviteUsed (now : Nat) : Clerk :=
  { clerk with
    ledger :=
      if disk.configReads then
        match clerk.ledger.burnByHash hash now with
        | some ledger => (saveLedger disk clerk.ledger ledger).2
        | none => clerk.ledger
      else clerk.ledger }

end Clerk

/-- One section: the answer, the coordinator after it, and what it gossips. -/
def InviteOp.run (sent : List GossipMsg) (clerk : Clerk) :
    InviteOp → Option (InviteOut × Clerk × List GossipMsg)
  | .mint hash ttl hostname now disk =>
    let result := clerk.mint disk hash ttl hostname now
    some (result.1, result.2, [])
  | .share invite now =>
    if invite ∈ clerk.unshared then
      some (.shared, { clerk with unshared := clerk.unshared.erase invite },
        [.inviteShare invite.id invite.hash (saturatingAdd now invite.ttl)])
    else none
  | .revoke id disk =>
    let result := clerk.revoke disk id
    some (result.1, result.2, [])
  | .redeem hash by_ now disk =>
    let result := clerk.redeem disk hash by_ now
    some (result.1, result.2, [])
  | .denied hash disk =>
    if hash ∈ clerk.admitting then some (.done, clerk.restore disk hash, []) else none
  | .admitted hash =>
    if hash ∈ clerk.admitting then
      some (.done, { clerk with admitting := clerk.admitting.erase hash }, [.inviteUsed hash])
    else none
  | .receive msg trusted now disk =>
    if msg ∈ sent then
      if trusted then
        match msg with
        | .inviteShare id hash expires =>
          some (.done, clerk.handleInviteShare disk id hash expires now, [])
        | .inviteUsed hash => some (.done, clerk.handleInviteUsed disk hash now, [])
      else some (.done, clerk, [])
    else none
  | .restart => some (.done, { clerk with unshared := [], admitting := [] }, [])

def InviteAct.run (s : InviteNet) (a : InviteAct) : Option (InviteOut × InviteNet) :=
  (a.op.run s.sent (s.clerks a.coordinator)).map fun (out, clerk, gossip) =>
    (out, ⟨Function.update s.clerks a.coordinator clerk, gossip ++ s.sent⟩)

def inviteStep : StepRel InviteNet InviteAct InviteOut := fun s a out s' => a.run s = some (out, s')

abbrev InviteEntry := Entry InviteNet InviteAct InviteOut

/-! ## One step -/

variable {sent gossip : List GossipMsg} {clerk clerk' : Clerk} {op : InviteOp} {out : InviteOut}
  {hash : Name}

/-- What a section can do to its coordinator. A ledger that was not written is the old one. -/
inductive InviteOp.Ran (sent : List GossipMsg) (clerk : Clerk) :
    InviteOp → InviteOut → Clerk → List GossipMsg → Prop
  | mints (hash : Name) (ttl now : Nat) (bound : Option Name) (disk : Disk) :
      Ran sent clerk (.mint hash ttl bound now disk) .minted
        { clerk with
          ledger := clerk.ledger.mint hash ttl bound now
          unshared := ⟨hash.take 8, hash, ttl⟩ :: clerk.unshared } []
  /-- The code is not handed out. -/
  | mintFails (hash : Name) (ttl now : Nat) (bound : Option Name) (disk : Disk)
      (ledger : InviteStore)
      (written : ledger = clerk.ledger ∨ ledger = clerk.ledger.mint hash ttl bound now) :
      Ran sent clerk (.mint hash ttl bound now disk) .unavailable { clerk with ledger := ledger } []
  | shares (invite : Unshared) (now : Nat) (waits : invite ∈ clerk.unshared) :
      Ran sent clerk (.share invite now) .shared
        { clerk with unshared := clerk.unshared.erase invite }
        [.inviteShare invite.id invite.hash (saturatingAdd now invite.ttl)]
  | revokes (id : Name) (disk : Disk) (out : InviteOut) (ledger : InviteStore)
      (written : ledger = clerk.ledger ∨ clerk.ledger.revoke id = .ok ledger) :
      Ran sent clerk (.revoke id disk) out { clerk with ledger := ledger } []
  | redeems (hash : Name) (by_ : EndpointId) (now : Nat) (disk : Disk) (bound : Option Name)
      (ledger : InviteStore) (redeemed : clerk.ledger.redeem hash by_ now = .ok (bound, ledger)) :
      Ran sent clerk (.redeem hash by_ now disk) (.redeemed bound)
        { clerk with ledger := ledger, admitting := hash :: clerk.admitting } []
  | refuses (hash : Name) (by_ : EndpointId) (now : Nat) (disk : Disk) (refusal : InviteRefusal)
      (ledger : InviteStore)
      (written : ledger = clerk.ledger ∨
        ∃ bound, clerk.ledger.redeem hash by_ now = .ok (bound, ledger)) :
      Ran sent clerk (.redeem hash by_ now disk) (.refused refusal)
        { clerk with ledger := ledger } []
  | denies (hash : Name) (disk : Disk) (underway : hash ∈ clerk.admitting) (ledger : InviteStore)
      (written : ledger = clerk.ledger ∨ ledger = clerk.ledger.restore hash) :
      Ran sent clerk (.denied hash disk) .done
        { clerk with ledger := ledger, admitting := clerk.admitting.erase hash } []
  | admits (hash : Name) (underway : hash ∈ clerk.admitting) :
      Ran sent clerk (.admitted hash) .done
        { clerk with admitting := clerk.admitting.erase hash } [.inviteUsed hash]
  | hearsOf (id hash : Name) (expires now : Nat) (disk : Disk)
      (told : .inviteShare id hash expires ∈ sent) (ledger : InviteStore)
      (written : ledger = clerk.ledger ∨ ledger = clerk.ledger.recordShared id hash expires now) :
      Ran sent clerk (.receive (.inviteShare id hash expires) true now disk) .done
        { clerk with ledger := ledger } []
  | hearsUsed (hash : Name) (now : Nat) (disk : Disk) (ledger : InviteStore)
      (written : ledger = clerk.ledger ∨ clerk.ledger.burnByHash hash now = some ledger) :
      Ran sent clerk (.receive (.inviteUsed hash) true now disk) .done
        { clerk with ledger := ledger } []
  | ignores (msg : GossipMsg) (now : Nat) (disk : Disk) :
      Ran sent clerk (.receive msg false now disk) .done clerk []
  | restarts : Ran sent clerk .restart .done { clerk with unshared := [], admitting := [] } []

theorem saveLedger_cases (disk : Disk) (old new : InviteStore) :
    (saveLedger disk old new).2 = old ∨ (saveLedger disk old new).2 = new := by
  unfold saveLedger
  split
  · exact .inr rfl
  · exact .inr rfl
  · exact .inl rfl

variable {disk : Disk} {now : Nat}

variable {ledger : InviteStore} {bound : Option Name} {by_ : EndpointId}

theorem saveLedger_eq (eq : saveLedger disk old new = (saved, ledger)) :
    ledger = old ∨ ledger = new := by
  rcases saveLedger_cases disk old new with kept | written
  · exact .inl (by rw [← kept, eq])
  · exact .inr (by rw [← written, eq])

theorem saveLedger_true (eq : saveLedger disk old new = (true, ledger)) : ledger = new := by
  unfold saveLedger at eq
  split at eq <;> cases eq
  rfl

theorem saveLedger_writes (writes : disk.configFault ≠ some false) (old new : InviteStore) :
    (saveLedger disk old new).2 = new := by
  unfold saveLedger
  split
  · rfl
  · rfl
  · next fault => exact absurd fault writes

section

variable (clerk) (disk : Disk) (hash : Name)

theorem Clerk.mint_ran (ttl now : Nat) (bound : Option Name) (disk : Disk) :
    InviteOp.Ran sent clerk (.mint hash ttl bound now disk)
      (clerk.mint disk hash ttl bound now).1 (clerk.mint disk hash ttl bound now).2 [] := by
  unfold Clerk.mint
  split
  · split
    · next saved =>
      cases saveLedger_true saved
      exact .mints hash ttl now bound disk
    · next saved => exact .mintFails hash ttl now bound disk _ (saveLedger_eq saved)
  · exact .mintFails hash ttl now bound disk _ (.inl rfl)

theorem Clerk.revoke_ran (id : Name) (disk : Disk) :
    InviteOp.Ran sent clerk (.revoke id disk) (clerk.revoke disk id).1 (clerk.revoke disk id).2
      [] := by
  have written {ledger new : InviteStore} {saved : Bool}
      (revoked : clerk.ledger.revoke id = .ok new)
      (eq : saveLedger disk clerk.ledger new = (saved, ledger)) :
      ledger = clerk.ledger ∨ clerk.ledger.revoke id = .ok ledger := by
    rcases saveLedger_eq eq with kept | rfl
    · exact .inl kept
    · exact .inr revoked
  unfold Clerk.revoke
  split
  · split
    · exact .revokes id disk _ _ (.inl rfl)
    · next new revoked =>
      split
      · next saved => exact .revokes id disk _ _ (written revoked saved)
      · next saved => exact .revokes id disk _ _ (written revoked saved)
  · exact .revokes id disk _ _ (.inl rfl)

theorem Clerk.redeem_ran (by_ : EndpointId) (now : Nat) (disk : Disk) :
    InviteOp.Ran sent clerk (.redeem hash by_ now disk) (clerk.redeem disk hash by_ now).1
      (clerk.redeem disk hash by_ now).2 [] := by
  unfold Clerk.redeem
  split
  · split
    · exact .refuses hash by_ now disk _ _ (.inl rfl)
    · next bound new redeemed =>
      split
      · next saved =>
        cases saveLedger_true saved
        exact .redeems hash by_ now disk bound new redeemed
      · next saved =>
        rcases saveLedger_eq saved with rfl | rfl
        · exact .refuses hash by_ now disk _ _ (.inl rfl)
        · exact .refuses hash by_ now disk _ _ (.inr ⟨bound, redeemed⟩)
  · exact .refuses hash by_ now disk _ _ (.inl rfl)

theorem Clerk.written_restore :
    (clerk.restore disk hash).ledger = clerk.ledger ∨
      (clerk.restore disk hash).ledger = clerk.ledger.restore hash := by
  unfold Clerk.restore
  split
  · exact saveLedger_cases ..
  · exact .inl rfl

theorem Clerk.written_share (id hash : Name) (expires now : Nat) :
    (clerk.handleInviteShare disk id hash expires now).ledger = clerk.ledger ∨
      (clerk.handleInviteShare disk id hash expires now).ledger =
        clerk.ledger.recordShared id hash expires now := by
  unfold Clerk.handleInviteShare
  split
  · exact saveLedger_cases ..
  · exact .inl rfl

theorem Clerk.written_used (now : Nat) :
    (clerk.handleInviteUsed disk hash now).ledger = clerk.ledger ∨
      clerk.ledger.burnByHash hash now = some (clerk.handleInviteUsed disk hash now).ledger := by
  unfold Clerk.handleInviteUsed
  split
  · split
    · next new burned =>
      rcases saveLedger_cases disk clerk.ledger new with kept | written
      · exact .inl kept
      · exact .inr (by rw [burned, written])
    · exact .inl rfl
  · exact .inl rfl

end

theorem InviteOp.ran_of_run (ran : op.run sent clerk = some (out, clerk', gossip)) :
    InviteOp.Ran sent clerk op out clerk' gossip := by
  cases op with
  | mint hash ttl bound now disk =>
    obtain ⟨rfl, rfl, rfl⟩ := ran
    exact clerk.mint_ran hash ttl now bound disk
  | share invite now =>
    obtain ⟨waits, ran⟩ := Option.ite_none_right_eq_some.1 ran
    cases ran
    exact .shares invite now waits
  | revoke id disk =>
    obtain ⟨rfl, rfl, rfl⟩ := ran
    exact clerk.revoke_ran id disk
  | redeem hash by_ now disk =>
    obtain ⟨rfl, rfl, rfl⟩ := ran
    exact clerk.redeem_ran hash by_ now disk
  | denied hash disk =>
    obtain ⟨underway, ran⟩ := Option.ite_none_right_eq_some.1 ran
    cases ran
    exact .denies hash disk underway _ (clerk.written_restore disk hash)
  | admitted hash =>
    obtain ⟨underway, ran⟩ := Option.ite_none_right_eq_some.1 ran
    cases ran
    exact .admits hash underway
  | receive msg trusted now disk =>
    simp only [InviteOp.run] at ran
    split at ran
    · next told =>
      split at ran
      · next known =>
        cases known
        split at ran
        · next id hash expires =>
          cases ran
          exact .hearsOf id hash expires now disk told _
            (clerk.written_share disk id hash expires now)
        · next hash =>
          cases ran
          exact .hearsUsed hash now disk _ (clerk.written_used disk hash now)
      · next stranger =>
        cases ran
        cases Bool.not_eq_true _ ▸ stranger
        exact .ignores msg now disk
    · cases ran
  | restart =>
    cases ran
    exact .restarts

/-- What a section leaves under `hash` in the ledger. -/
inductive Found (sent : List GossipMsg) (clerk : Clerk) (op : InviteOp) (hash : Name)
    (found' : Option Invite) : Prop
  | same (same : found' = clerk.ledger.find hash)
  | minted (ttl now : Nat) (bound : Option Name) (disk : Disk)
      (act : op = .mint hash ttl bound now disk) (fresh : clerk.ledger.find hash = none)
      (after : found' = some (.new hash ttl bound now))
  | recorded (id : Name) (expires now : Nat) (disk : Disk)
      (act : op = .receive (.inviteShare id hash expires) true now disk)
      (told : .inviteShare id hash expires ∈ sent) (fresh : clerk.ledger.find hash = none)
      (after : found' = some ⟨id, hash, now, expires, .pending, none⟩)
  | revoked (invite : Invite) (id : Name) (disk : Disk) (act : op = .revoke id disk)
      (listed : clerk.ledger.find hash = some invite)
      (unused : ∀ by_ at_, invite.status ≠ .redeemed by_ at_)
      (after : found' = some { invite with status := .revoked })
  | redeemed (invite : Invite) (by_ : EndpointId) (now : Nat) (disk : Disk)
      (act : op = .redeem hash by_ now disk) (listed : clerk.ledger.find hash = some invite)
      (pending : invite.status = .pending)
      (after : found' = some { invite with status := .redeemed by_ now })
  | restored (invite : Invite) (by_ : EndpointId) (at_ : Nat) (disk : Disk)
      (act : op = .denied hash disk) (underway : hash ∈ clerk.admitting)
      (listed : clerk.ledger.find hash = some invite) (used : invite.status = .redeemed by_ at_)
      (after : found' = some { invite with status := .pending })
  | burned (invite : Invite) (now : Nat) (disk : Disk)
      (act : op = .receive (.inviteUsed hash) true now disk)
      (listed : clerk.ledger.find hash = some invite) (pending : invite.status = .pending)
      (after : found' = some { invite with status := .redeemed 0 now })

theorem Found.of_mint :
    Found sent clerk (.mint secret ttl bound now disk) hash
      ((clerk.ledger.mint secret ttl bound now).find hash) := by
  rw [InviteStore.mint, find_append]
  cases listed : clerk.ledger.find hash with
  | some invite => exact .same listed.symm
  | none =>
    split
    · next same =>
      cases same
      exact .minted ttl now bound disk rfl listed rfl
    · exact .same listed.symm

theorem Found.of_redeem (redeemed : clerk.ledger.redeem secret by_ now = .ok (bound, ledger)) :
    Found sent clerk (.redeem secret by_ now disk) hash (ledger.find hash) := by
  obtain ⟨invite, listed, pending, -, -, rfl⟩ := redeem_ok redeemed
  rcases eq_or_ne hash secret with rfl | differs
  · refine .redeemed invite by_ now disk rfl listed pending ?_
    rw [find_setStatus, listed, Option.map_some]
  · exact .same (find_setStatus_ne _ differs)

theorem InviteOp.Ran.found (ran : InviteOp.Ran sent clerk op out clerk' gossip) (hash : Name) :
    Found sent clerk op hash (clerk'.ledger.find hash) := by
  cases ran with
  | mints => exact .of_mint
  | mintFails _ _ _ _ _ ledger written =>
    rcases written with rfl | rfl
    · exact .same rfl
    · exact .of_mint
  | shares | admits | ignores | restarts => exact .same rfl
  | revokes id disk _ ledger written =>
    rcases written with rfl | revoked
    · exact .same rfl
    · rcases find_revoke revoked hash with same | ⟨invite, listed, unused, after⟩
      · exact .same same
      · exact .revoked invite id disk rfl listed unused after
  | redeems _ _ _ _ _ _ redeemed => exact .of_redeem redeemed
  | refuses _ _ _ _ _ ledger written =>
    rcases written with rfl | ⟨bound, redeemed⟩
    · exact .same rfl
    · exact .of_redeem redeemed
  | denies secret disk underway ledger written =>
    rcases written with rfl | rfl
    · exact .same rfl
    · rcases find_restore clerk.ledger secret hash with
        same | ⟨invite, by_, at_, rfl, listed, used, after⟩
      · exact .same same
      · exact .restored invite by_ at_ disk rfl underway listed used after
  | hearsOf id secret expires now disk told ledger written =>
    rcases written with rfl | rfl
    · exact .same rfl
    · rcases find_recordShared clerk.ledger id secret expires now hash with
        same | ⟨rfl, fresh, after⟩
      · exact .same same
      · exact .recorded id expires now disk rfl told fresh after
  | hearsUsed secret now disk ledger written =>
    rcases written with rfl | burned
    · exact .same rfl
    · obtain ⟨invite, listed, pending, rfl⟩ := burnByHash_some burned
      rcases eq_or_ne hash secret with rfl | differs
      · refine .burned invite now disk rfl listed pending ?_
        rw [find_setStatus, listed, Option.map_some]
      · exact .same (find_setStatus_ne _ differs)

/-! ## Spent for good -/

/-- The invite is listed as used or revoked, and no admission can put it back. -/
structure Clerk.Spent (clerk : Clerk) (hash : Name) : Prop where
  listed : ∃ invite, clerk.ledger.find hash = some invite ∧ invite.status ≠ .pending
  idle : hash ∉ clerk.admitting

theorem Clerk.Spent.refuses (spent : clerk.Spent hash) :
    ¬ InviteOp.Ran sent clerk (.redeem hash by_ now disk) (.redeemed bound) clerk' gossip := by
  intro ran
  obtain ⟨invite, listed, final⟩ := spent.listed
  cases ran with
  | redeems _ _ _ _ _ ledger redeemed =>
    obtain ⟨invite', listed', pending, -⟩ := redeem_ok redeemed
    cases listed.symm.trans listed'
    exact final pending

theorem Clerk.Spent.step (spent : clerk.Spent hash)
    (ran : InviteOp.Ran sent clerk op out clerk' gossip) : clerk'.Spent hash := by
  obtain ⟨invite, listed, final⟩ := spent.listed
  constructor
  · cases ran.found hash with
    | same same => exact ⟨invite, same.trans listed, final⟩
    | minted _ _ _ _ _ fresh _ | recorded _ _ _ _ _ _ fresh _ => cases fresh.symm.trans listed
    | revoked _ _ _ _ _ _ after => exact ⟨_, after, nofun⟩
    | redeemed invite' _ _ _ _ listed' pending _ | burned invite' _ _ _ listed' pending _ =>
      cases listed.symm.trans listed'
      exact absurd pending final
    | restored _ _ _ _ _ underway _ _ _ => exact absurd underway spent.idle
  · cases ran with
    | redeems secret by_ now disk bound ledger redeemed =>
      rintro (_ | ⟨_, before⟩)
      · obtain ⟨invite', listed', pending, -⟩ := redeem_ok redeemed
        cases listed.symm.trans listed'
        exact final pending
      · exact spent.idle before
    | denies | admits => exact fun underway => spent.idle (List.mem_of_mem_erase underway)
    | restarts => exact List.not_mem_nil
    | _ => exact spent.idle

/-- Each admission under way has burned its invite, and no two the same. -/
structure Clerk.Sound (clerk : Clerk) : Prop where
  burned : ∀ hash ∈ clerk.admitting, ∃ invite by_ at_,
    clerk.ledger.find hash = some invite ∧ invite.status = .redeemed by_ at_
  distinct : clerk.admitting.Nodup

theorem Clerk.sound_of_idle (idle : clerk.admitting = []) : clerk.Sound := by
  constructor
  · intro hash underway
    rw [idle] at underway
    cases underway
  · rw [idle]
    exact List.nodup_nil

/-- A used invite stays as it is in every section that does not put it back. -/
theorem InviteOp.Ran.used (ran : InviteOp.Ran sent clerk op out clerk' gossip)
    (listed : clerk.ledger.find hash = some invite) (used : invite.status = .redeemed by_ at_) :
    clerk'.ledger.find hash = some invite ∨ (∃ disk, op = .denied hash disk) ∧
      clerk'.ledger.find hash = some { invite with status := .pending } := by
  cases ran.found hash with
  | same same => exact .inl (same.trans listed)
  | minted _ _ _ _ _ fresh _ | recorded _ _ _ _ _ _ fresh _ => cases fresh.symm.trans listed
  | revoked _ _ _ _ listed' unused _ =>
    cases listed.symm.trans listed'
    exact absurd used (unused by_ at_)
  | redeemed _ _ _ _ _ listed' pending _ | burned _ _ _ _ listed' pending _ =>
    cases listed.symm.trans listed'
    cases pending.symm.trans used
  | restored _ _ _ disk act _ listed' _ after =>
    cases listed.symm.trans listed'
    exact .inr ⟨⟨disk, act⟩, after⟩

section

variable (sound : clerk.Sound) (ran : InviteOp.Ran sent clerk op out clerk' gossip)

include sound ran

/-- An admission that goes on keeps its invite burned. -/
theorem Clerk.Sound.keeps
    (underway : hash ∈ clerk.admitting) (going : ∀ disk, op ≠ .denied hash disk) :
    ∃ invite by_ at_,
      clerk'.ledger.find hash = some invite ∧ invite.status = .redeemed by_ at_ := by
  obtain ⟨invite, by_, at_, listed, used⟩ := sound.burned hash underway
  rcases ran.used listed used with kept | ⟨⟨disk, denied⟩, -⟩
  · exact ⟨invite, by_, at_, kept, used⟩
  · exact absurd denied (going disk)

theorem Clerk.Sound.step : clerk'.Sound := by
  have keeps (hash : Name) (underway : hash ∈ clerk.admitting) := sound.keeps ran underway
  cases ran with
  | redeems secret by_ now disk bound ledger redeemed =>
    obtain ⟨invite, listed, pending, -, -, rfl⟩ := redeem_ok redeemed
    have fresh : secret ∉ clerk.admitting := by
      intro underway
      obtain ⟨invite', by_', at_', listed', used⟩ := sound.burned secret underway
      cases listed.symm.trans listed'
      cases pending.symm.trans used
    refine ⟨fun hash underway => ?_, List.nodup_cons.mpr ⟨fresh, sound.distinct⟩⟩
    rcases List.mem_cons.mp underway with rfl | before
    · refine ⟨{ invite with status := .redeemed by_ now }, by_, now, ?_, rfl⟩
      rw [find_setStatus, listed, Option.map_some]
    · exact keeps hash before nofun
  | denies secret disk _ ledger written =>
    refine ⟨fun hash underway => ?_, sound.distinct.erase secret⟩
    obtain ⟨other, before⟩ := sound.distinct.mem_erase_iff.mp underway
    refine keeps hash before fun disk' denies => other ?_
    cases denies
    rfl
  | admits secret _ =>
    exact ⟨fun hash underway => keeps hash (List.mem_of_mem_erase underway) nofun,
      sound.distinct.erase secret⟩
  | restarts => exact Clerk.sound_of_idle rfl
  | _ => exact ⟨fun hash underway => keeps hash underway nofun, sound.distinct⟩

end

/-! ## Runs -/

variable {s₀ s s' : InviteNet} {a : InviteAct} {h : List InviteEntry} {c : EndpointId}

theorem InviteNet.step_cases (step : inviteStep s a out s') :
    ∃ clerk' gossip, InviteOp.Ran s.sent (s.clerks a.coordinator) a.op out clerk' gossip ∧
      s' = ⟨Function.update s.clerks a.coordinator clerk', gossip ++ s.sent⟩ := by
  obtain ⟨⟨out', clerk', gossip⟩, ran, same⟩ := Option.map_eq_some_iff.mp step
  cases same
  exact ⟨clerk', gossip, InviteOp.ran_of_run ran, rfl⟩

section

variable {P : Clerk → Prop} (keeps : ∀ {sent clerk op out clerk' gossip}, P clerk →
  InviteOp.Ran sent clerk op out clerk' gossip → P clerk')

include keeps

/-- What every section keeps of its coordinator, every step keeps of every coordinator. -/
theorem InviteNet.clerk_step
    (step : inviteStep s a out s') (before : P (s.clerks c)) : P (s'.clerks c) := by
  obtain ⟨clerk', gossip, ran, rfl⟩ := step_cases step
  rcases eq_or_ne c a.coordinator with rfl | elsewhere
  · dsimp only
    rw [Function.update_self]
    exact keeps before ran
  · dsimp only
    rwa [Function.update_of_ne elsewhere]

theorem InviteNet.clerk_run
    (run : Run inviteStep s₀ h s) (first : P (s₀.clerks c)) : P (s.clerks c) :=
  run.preserves first fun step before => clerk_step keeps step before

end

/-- `c` redeems the invite. -/
def Redeems (c : EndpointId) (hash : Name) (e : InviteEntry) : Prop :=
  ∃ by_ now disk bound, e.act = ⟨c, .redeem hash by_ now disk⟩ ∧ e.out = .redeemed bound

/-- The steps after which the invite is spent at `c`: it hears of the use while its ledger
lists the invite and none of its own admissions has burned it, or its own admission with
it stands. -/
inductive Settles (c : EndpointId) (hash : Name) (e : InviteEntry) : Prop
  | told (now : Nat) (disk : Disk) (act : e.act = ⟨c, .receive (.inviteUsed hash) true now disk⟩)
      (reads : disk.configReads) (writes : disk.configFault ≠ some false)
      (listed : ((e.before.clerks c).ledger.find hash).isSome)
      (idle : hash ∉ (e.before.clerks c).admitting)
  | admitted (act : e.act = ⟨c, .admitted hash⟩)

theorem Clerk.spent_of_told (reads : disk.configReads) (writes : disk.configFault ≠ some false)
    (listed : (clerk.ledger.find hash).isSome) (idle : hash ∉ clerk.admitting) :
    (clerk.handleInviteUsed disk hash now).Spent hash := by
  obtain ⟨invite, found⟩ := Option.isSome_iff_exists.mp listed
  refine ⟨?_, idle⟩
  unfold Clerk.handleInviteUsed
  rw [if_pos reads]
  by_cases pending : invite.status = .pending
  · have burned : clerk.ledger.burnByHash hash now =
        some (clerk.ledger.setStatus (.redeemed 0 now) hash) := by
      rw [InviteStore.burnByHash, found, Option.map_some, pending]
    rw [burned]
    dsimp only
    rw [saveLedger_writes writes, find_setStatus, found]
    exact ⟨_, rfl, nofun⟩
  · have kept : clerk.ledger.burnByHash hash now = none := by
      cases burned : clerk.ledger.burnByHash hash now with
      | none => rfl
      | some ledger =>
        obtain ⟨invite', found', pending', -⟩ := burnByHash_some burned
        cases found.symm.trans found'
        exact absurd pending' pending
    rw [kept]
    exact ⟨invite, found, pending⟩

theorem Settles.spent (settles : Settles c hash e) (sound : (e.before.clerks c).Sound)
    (step : inviteStep e.before e.act e.out e.after) :
    (e.after.clerks c).Spent hash := by
  cases settles with
  | told now disk act reads writes listed idle =>
    rw [act] at step
    obtain ⟨⟨out', clerk', gossip⟩, ran, same⟩ := Option.map_eq_some_iff.mp step
    cases (Option.ite_none_right_eq_some.1 ran).2
    rw [← (Prod.mk.inj same).2]
    dsimp only
    rw [Function.update_self]
    exact Clerk.spent_of_told reads writes listed idle
  | admitted act =>
    obtain ⟨clerk', gossip, ran, after⟩ := InviteNet.step_cases step
    rw [act] at ran after
    generalize e.out = out at ran
    rw [after]
    dsimp only
    rw [Function.update_self]
    cases ran with
    | admits _ underway =>
      obtain ⟨invite, by_, at_, listed, used⟩ := sound.burned hash underway
      exact ⟨⟨invite, listed, used ▸ nofun⟩, sound.distinct.not_mem_erase⟩

/-- **A spent invite.** Once a coordinator has heard of the use of an invite its ledger
lists, with no admission of its own under way on it, or has admitted someone with it, it
never redeems it again; and once that holds of all of them, none does. -/
theorem spent_stays_spent (hash : Name) (idle : ∀ c, (s₀.clerks c).admitting = [])
    (run : Run inviteStep s₀ h s) :
    (∀ pre e post c, h = pre ++ e :: post → Settles c hash e → ∀ e' ∈ post, ¬ Redeems c hash e') ∧
    (∀ (coordinators : Set EndpointId) pre post, h = pre ++ post →
      (∀ c ∈ coordinators, ∃ e ∈ pre, Settles c hash e) →
      ∀ e' ∈ post, ∀ c ∈ coordinators, ¬ Redeems c hash e') := by
  have final : ∀ pre e post c, h = pre ++ e :: post → Settles c hash e →
      ∀ e' ∈ post, ¬ Redeems c hash e' := by
    rintro pre e post c rfl settles e' later ⟨by_, now, disk, bound, act, redeemed⟩
    obtain ⟨before, step, after⟩ := run.split rfl
    have sound := InviteNet.clerk_run Clerk.Sound.step before (Clerk.sound_of_idle (idle c))
    obtain ⟨mid, rest, rfl⟩ := List.append_of_mem later
    obtain ⟨between, step', -⟩ := after.split rfl
    have spent := InviteNet.clerk_run Clerk.Spent.step between (settles.spent sound step)
    obtain ⟨clerk', gossip, ran, -⟩ := InviteNet.step_cases step'
    rw [act, redeemed] at ran
    exact spent.refuses ran
  refine ⟨final, ?_⟩
  rintro coordinators pre post rfl all e' later c member
  obtain ⟨e, earlier, settles⟩ := all c member
  obtain ⟨pre', rest, rfl⟩ := List.append_of_mem earlier
  exact final pre' e (rest ++ post) c (by simp) settles e' (List.mem_append_right _ later)

/-! ## Missed news -/

/-- A disk on which nothing fails. -/
def soundDisk : Disk := ⟨true, none, true, true⟩

/-- From here on `c` can come to redeem the invite at `later`. -/
def InviteNet.Redeemable (s : InviteNet) (c : EndpointId) (hash : Name) (later : Nat) : Prop :=
  ∃ h s', Run inviteStep s h s' ∧ ∃ e ∈ h, ∃ by_ disk bound,
    e.act = ⟨c, .redeem hash by_ later disk⟩ ∧ e.out = .redeemed bound

section

variable {later : Nat}

/-- A pending invite that has not expired can be redeemed. -/
theorem InviteNet.redeemable_of_pending (invite : Invite)
    (listed : (s.clerks c).ledger.find hash = some invite) (pending : invite.status = .pending)
    (live : later < invite.expires) : s.Redeemable c hash later := by
  have redeemed : (s.clerks c).ledger.redeem hash 0 later =
      .ok (invite.hostname, (s.clerks c).ledger.setStatus (.redeemed 0 later) hash) := by
    simp only [InviteStore.redeem, listed, pending]
    exact if_neg (Nat.not_le.mpr live)
  have ran : ((s.clerks c).redeem soundDisk hash 0 later).1 = .redeemed invite.hostname := by
    simp only [Clerk.redeem, redeemed]
    rfl
  have step : inviteStep s ⟨c, .redeem hash 0 later soundDisk⟩ _ _ := rfl
  exact ⟨_, _, .snoc .nil step, _, List.mem_singleton_self _, 0, soundDisk, _, rfl, ran⟩

theorem InviteNet.Redeemable.of_step (step : inviteStep s a out s')
    (after : s'.Redeemable c hash later) : s.Redeemable c hash later := by
  obtain ⟨h, s'', run, e, member, redeems⟩ := after
  exact ⟨_, s'', run.cons step, e, List.mem_cons_of_mem _ member, redeems⟩

/-- News of an invite that is not pending here changes nothing. -/
theorem InviteNet.eq_of_missed
    (step : inviteStep s ⟨c, .receive (.inviteUsed hash) true now disk⟩ out s')
    (missed : ∀ invite, (s.clerks c).ledger.find hash = some invite → invite.status ≠ .pending) :
    s' = s := by
  obtain ⟨clerk', gossip, ran, rfl⟩ := InviteNet.step_cases step
  cases ran with
  | hearsUsed _ _ _ ledger written =>
    rcases written with rfl | burned
    · rw [List.nil_append, Function.update_eq_self]
    · obtain ⟨invite, listed, pending, -⟩ := burnByHash_some burned
      exact absurd pending (missed invite listed)

end

def InviteNet.start : InviteNet := ⟨fun _ => ⟨[], [], []⟩, []⟩

/-- Coordinator 2 admits with an invite of coordinator 1, whose gossip has reached it. -/
def usedElsewhere : List InviteAct :=
  [⟨1, .mint ['k'] 100 none 0 soundDisk⟩, ⟨1, .share ⟨['k'], ['k'], 100⟩ 0⟩,
    ⟨2, .receive (.inviteShare ['k'] ['k'] 100) true 0 soundDisk⟩,
    ⟨2, .redeem ['k'] 7 1 soundDisk⟩, ⟨2, .admitted ['k']⟩]

/-- Meanwhile coordinator 1 redeems it too, and coordinator 3 has not heard of it. -/
def redeemedTwice : InviteNet :=
  (executed InviteAct.run .start (usedElsewhere ++ [⟨1, .redeem ['k'] 8 1 soundDisk⟩])).2

/-- Coordinator 1 then hears of the use, and refuses the secret. -/
theorem spent_stays_spent_told :
    ∃ pre e e' s, Run inviteStep .start (pre ++ [e, e']) s ∧ Settles 1 ['k'] e ∧
      e'.act = ⟨1, .redeem ['k'] 8 3 soundDisk⟩ ∧ ¬ Redeems 1 ['k'] e' := by
  have run := run_execute (f := InviteAct.run) (s := .start)
    (usedElsewhere ++ [⟨1, .receive (.inviteUsed ['k']) true 2 soundDisk⟩,
      ⟨1, .redeem ['k'] 8 3 soundDisk⟩]) rfl
  refine ⟨[_, _, _, _, _], _, _, _, run, ?_, rfl, ?_⟩
  · exact .told 2 soundDisk rfl rfl nofun rfl List.not_mem_nil
  · refine (spent_stays_spent ['k'] (fun _ => rfl) run).1 [_, _, _, _, _] _ [_] 1 rfl ?_ _
      List.mem_cons_self
    exact .told 2 soundDisk rfl rfl nofun rfl List.not_mem_nil

/-- Coordinator 3 hears of the use before it hears of the invite. -/
theorem used_before_shared :
    ∃ h s, Run inviteStep .start h s ∧ ∃ e₁ e₂ e₃,
      h[5]? = some e₁ ∧ h[6]? = some e₂ ∧ h[7]? = some e₃ ∧
      e₁.act = ⟨3, .receive (.inviteUsed ['k']) true 2 soundDisk⟩ ∧
      e₂.act = ⟨3, .receive (.inviteShare ['k'] ['k'] 100) true 2 soundDisk⟩ ∧
      Redeems 3 ['k'] e₃ := by
  have run := run_execute (f := InviteAct.run) (s := .start)
    (usedElsewhere ++ [⟨3, .receive (.inviteUsed ['k']) true 2 soundDisk⟩,
      ⟨3, .receive (.inviteShare ['k'] ['k'] 100) true 2 soundDisk⟩,
      ⟨3, .redeem ['k'] 8 3 soundDisk⟩]) rfl
  exact ⟨_, _, run, _, _, _, rfl, rfl, rfl, rfl, rfl, 8, 3, soundDisk, none, rfl, rfl⟩

/-! ## The ledger of one coordinator -/

/-- Revoked, or expired at `t`. -/
def Clerk.Dead (t : Nat) (hash : Name) (clerk : Clerk) : Prop :=
  ∃ invite, clerk.ledger.find hash = some invite ∧ (invite.status = .revoked ∨ invite.expires ≤ t)

theorem Clerk.Dead.step (dead : clerk.Dead t hash)
    (ran : InviteOp.Ran sent clerk op out clerk' gossip) : clerk'.Dead t hash := by
  obtain ⟨invite, listed, ended⟩ := dead
  -- an invite that is redeemed, burned or put back was not revoked
  have expired {invite' : Invite} {status : InviteStatus}
      (listed' : clerk.ledger.find hash = some invite') (unrevoked : invite'.status ≠ .revoked)
      (after : clerk'.ledger.find hash = some { invite' with status := status }) :
      clerk'.Dead t hash := by
    cases listed.symm.trans listed'
    exact ⟨_, after, .inr (ended.resolve_left unrevoked)⟩
  cases ran.found hash with
  | same same => exact ⟨invite, same.trans listed, ended⟩
  | minted _ _ _ _ _ fresh _ | recorded _ _ _ _ _ _ fresh _ => cases fresh.symm.trans listed
  | revoked _ _ _ _ _ _ after => exact ⟨_, after, .inl rfl⟩
  | redeemed _ _ _ _ _ listed' pending after | burned _ _ _ _ listed' pending after =>
    exact expired listed' (by simp [pending]) after
  | restored _ _ _ _ _ _ listed' used after => exact expired listed' (by simp [used]) after

variable {invite : Invite} {by_ : EndpointId} {at_ : Nat}

theorem InviteNet.used_step (step : inviteStep s a out s')
    (listed : (s.clerks c).ledger.find hash = some invite)
    (used : invite.status = .redeemed by_ at_) :
    (s'.clerks c).ledger.find hash = some invite ∨ (∃ disk, a = ⟨c, .denied hash disk⟩) ∧
      (s'.clerks c).ledger.find hash = some { invite with status := .pending } := by
  obtain ⟨clerk', gossip, ran, rfl⟩ := step_cases step
  obtain ⟨c', op⟩ := a
  dsimp only at ran ⊢
  rcases eq_or_ne c c' with rfl | elsewhere
  · rw [Function.update_self]
    rcases ran.used listed used with kept | ⟨⟨disk, rfl⟩, after⟩
    · exact .inl kept
    · exact .inr ⟨⟨disk, rfl⟩, after⟩
  · rw [Function.update_of_ne elsewhere]
    exact .inl listed

theorem InviteNet.used_run (run : Run inviteStep s₀ h s)
    (listed : (s₀.clerks c).ledger.find hash = some invite)
    (used : invite.status = .redeemed by_ at_)
    (kept : ∀ e ∈ h, ∀ disk, e.act ≠ ⟨c, .denied hash disk⟩) :
    (s.clerks c).ledger.find hash = some invite := by
  refine run.invariant kept listed fun _ _ step kept before => ?_
  rcases used_step step before used with same | ⟨⟨disk, denied⟩, -⟩
  · exact same
  · exact absurd denied (kept disk)

/-- A redemption finds the invite live and leaves it used. -/
theorem Redeems.found (redeems : Redeems c hash e)
    (step : inviteStep e.before e.act e.out e.after) :
    ∃ invite by_ now disk, e.act = ⟨c, .redeem hash by_ now disk⟩ ∧
      (e.before.clerks c).ledger.find hash = some invite ∧ invite.status = .pending ∧
      now < invite.expires ∧
      (e.after.clerks c).ledger.find hash = some { invite with status := .redeemed by_ now } := by
  obtain ⟨by_, now, disk, bound, act, redeemed⟩ := redeems
  obtain ⟨clerk', gossip, ran, after⟩ := InviteNet.step_cases step
  rw [act] at ran after
  rw [redeemed] at ran
  cases ran with
  | redeems _ _ _ _ _ ledger redeemed =>
    obtain ⟨invite, listed, pending, live, -, rfl⟩ := redeem_ok redeemed
    refine ⟨invite, by_, now, disk, act, listed, pending, live, ?_⟩
    rw [after]
    dsimp only
    rw [Function.update_self, find_setStatus, listed, Option.map_some]

theorem InviteNet.shared_step {id : Name} {expires now : Nat} {trusted : Bool} {disk : Disk}
    (step : inviteStep s a out s')
    (news : a.op = .receive (.inviteShare id hash expires) trusted now disk)
    (listed : (s.clerks c).ledger.find hash = some invite) :
    (s'.clerks c).ledger.find hash = some invite := by
  obtain ⟨clerk', gossip, ran, rfl⟩ := step_cases step
  dsimp only
  rcases eq_or_ne c a.coordinator with rfl | elsewhere
  · rw [Function.update_self]
    rw [news] at ran
    cases ran.found hash with
    | same same => exact same.trans listed
    | recorded _ _ _ _ _ _ fresh _ => cases fresh.symm.trans listed
    | minted _ _ _ _ act | revoked _ _ _ act | redeemed _ _ _ _ act | restored _ _ _ _ act
    | burned _ _ _ act => cases act
  · rwa [Function.update_of_ne elsewhere]

/-- **One coordinator's ledger.** Between two redemptions of a secret it is put back. An
invite that was revoked, or had expired at a time `t`, is not redeemed from then on. A used
one changes only by being put back, and news of a listed one changes nothing. -/
theorem invite_ledger (run : Run inviteStep s₀ h s) (c : EndpointId) (hash : Name) :
    (∀ pre e mid e' post, h = pre ++ e :: (mid ++ e' :: post) → Redeems c hash e →
      Redeems c hash e' → ∃ e'' ∈ mid, ∃ disk, e''.act = ⟨c, .denied hash disk⟩) ∧
    (∀ pre e post t, h = pre ++ e :: post → (e.before.clerks c).Dead t hash →
      ∀ e' ∈ e :: post, ∀ by_ now disk, e'.act = ⟨c, .redeem hash by_ now disk⟩ → t ≤ now →
        ¬ Redeems c hash e') ∧
    (∀ e ∈ h, ∀ invite by_ at_, (e.before.clerks c).ledger.find hash = some invite →
      invite.status = .redeemed by_ at_ → (e.after.clerks c).ledger.find hash = some invite ∨
        (∃ disk, e.act = ⟨c, .denied hash disk⟩) ∧
          (e.after.clerks c).ledger.find hash = some { invite with status := .pending }) ∧
    (∀ e ∈ h, ∀ invite id expires trusted now disk,
      e.act.op = .receive (.inviteShare id hash expires) trusted now disk →
      (e.before.clerks c).ledger.find hash = some invite →
      (e.after.clerks c).ledger.find hash = some invite) := by
  refine ⟨?_, ?_, ?_, ?_⟩
  · rintro pre e mid e' post rfl first second
    obtain ⟨-, step, rest⟩ := run.split rfl
    obtain ⟨between, step', -⟩ := rest.split rfl
    obtain ⟨invite, by_, now, disk, -, -, -, -, used⟩ := first.found step
    obtain ⟨invite', -, -, -, -, listed, pending, -⟩ := second.found step'
    by_contra none
    have kept := InviteNet.used_run between used rfl fun e'' member disk denied =>
      none ⟨e'', member, disk, denied⟩
    cases kept.symm.trans listed
    cases pending
  · rintro pre e post t rfl dead e' later by_ now disk act expired redeems
    obtain ⟨mid, rest, split⟩ := List.append_of_mem later
    obtain ⟨-, step, after⟩ := run.split rfl
    obtain ⟨between, step', -⟩ := (after.cons step).split split
    obtain ⟨invite, listed, ended⟩ := InviteNet.clerk_run Clerk.Dead.step between dead
    obtain ⟨invite', by', now', disk', act', listed', pending, live, -⟩ := redeems.found step'
    cases act.symm.trans act'
    cases listed.symm.trans listed'
    rcases ended with revoked | early
    · cases revoked.symm.trans pending
    · exact absurd live (Nat.not_lt.mpr (early.trans expired))
  · intro e member invite by_ at_ listed used
    exact InviteNet.used_step (run.entry_step member) listed used
  · intro e member invite id expires trusted now disk news listed
    exact InviteNet.shared_step (run.entry_step member) news listed

/-- An invite is redeemed, put back when the admission is denied, and redeemed again. -/
theorem invite_ledger_restored :
    ∃ pre e mid e' s, Run inviteStep .start (pre ++ e :: (mid ++ [e'])) s ∧
      Redeems 1 ['k'] e ∧ Redeems 1 ['k'] e' ∧
      ∃ e'' ∈ mid, ∃ disk, e''.act = ⟨1, .denied ['k'] disk⟩ := by
  have run := run_execute (f := InviteAct.run) (s := .start)
    [⟨1, .mint ['k'] 100 none 0 soundDisk⟩, ⟨1, .redeem ['k'] 7 1 soundDisk⟩,
      ⟨1, .denied ['k'] soundDisk⟩, ⟨1, .redeem ['k'] 8 3 soundDisk⟩] rfl
  refine ⟨[_], _, [_], _, _, run, ⟨7, 1, soundDisk, none, rfl, rfl⟩,
    ⟨8, 3, soundDisk, none, rfl, rfl⟩, ?_⟩
  exact (invite_ledger run 1 ['k']).1 [_] _ [_] _ [] rfl ⟨7, 1, soundDisk, none, rfl, rfl⟩
    ⟨8, 3, soundDisk, none, rfl, rfl⟩

end Rayfish
