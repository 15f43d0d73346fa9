import Rayfish.Mesh.RelayOrder

/-!
# A single coordinator

With a single coordinator the saved pointer moves only to generations of its own: a record
that comes back is stopped by the replay floor, or by the check for a generation that is not
published, so that applying or restoring it changes nothing (`Steady`). The relay then never
goes back. This needs the steps to be `Orderly`.
-/

namespace Rayfish.Publisher

open Lib

variable {Hash : Type}

variable {codec : GroupCodec Hash} {me : EndpointId} {key : EndpointId} {group : GroupBlob}
  {s s' : Publishing Hash} {act : PublishAct Hash} {out : PublishOut Hash}

/-- A restart goes on from what was saved. -/
def Stage.Steady (n : Node Hash) : Stage Hash → Prop
  | .loaded restored _ floor | .sealed restored _ floor =>
    ∃ cfg, n.config = some cfg ∧ cfg.lastRecordTimestamp = floor ∧
      cfg.lastGroupHash = some restored.hash ∧
      (restored.published = true → cfg.lastGroupHashPublished = true)
  | .starting _ => n.net.unconfirmedDurableHash = none
  | _ => True

/-- The marker and the holder of the lock are steady. -/
def LockSteady (log served : List (Issued Hash)) (n : Node Hash) : Option (Locked Hash) → Prop
  | some phase => phase.Steady log served n
  | none => Marked log served (fun _ => True) n

structure Steady (s : Publishing Hash) : Prop where
  grounded : Grounded s.log s.served s.node
  locked : s.stage = .running → LockSteady s.log s.served s.node s.locked
  stage : s.stage.Steady s.node
  applies : ∀ task t, s.applies task = some t →
    (∃ i ∈ s.served, i.record = t.record) ∧ Noted s.node t
  idle : s.stage ≠ .running → ∀ task, s.applies task = none
  taken : ∀ i ∈ s.taken, i ∈ s.served

def answeredRecord : RelayAnswer Hash → Option (SignedGroupRecord Hash)
  | .record record _ => some record
  | .unavailable | .destroyed | .malformed => none

/-- Nobody else signs: the records that reach this node are ones the relay was sent, and the
relay answers a restart with the one it holds. -/
def Alone (s : Publishing Hash) : PublishAct Hash → Prop
  | .receive _ record _ _ => ∃ i ∈ s.served, i.record = record
  | .load restart => ∀ record ∈ answeredRecord restart.answer, s.relay.map (·.record) = some record
  | _ => True

/-- An apply run takes a record for what is saved only while the config can be read and the
group that was last encoded is saved. A record that names the saved pointer is taken for it,
or confirmed, only if no record for another hash was signed since. -/
def Timely (s : Publishing Hash) : PublishAct Hash → Prop
  | .advance task disk _ => ∀ t ∈ s.applies task, adopts t.phase = true →
      disk.configReads = true ∧ Encoded s.node ∧
        (savedPointer s.node = some t.record.hash → Latest s.log t.record)
  | .confirm packet _ => ∀ i ∈ s.taken[packet]?,
      savedPointer s.node = some i.record.hash → Latest s.log i.record
  | _ => True

structure Orderly (codec : GroupCodec Hash) (s : Publishing Hash) (act : PublishAct Hash) :
    Prop where
  undisturbed : Undisturbed codec s act
  alone : Alone s act
  timely : Timely s act

theorem served_log (sent : i ∈ s.served) : i ∈ s.log :=
  List.mem_append_right _ sent

/-! ## Frames -/

variable {n node : Node Hash} {hash : Hash}

variable {log served : List (Issued Hash)} {h : PublishHistory Hash}

theorem LockSteady.mono (steady : LockSteady log served n locked)
    (follows : Follows log served log' served' n n') : LockSteady log' served' n' locked := by
  cases locked with
  | none =>
    have marked : Marked log served (fun _ => True) n := steady
    exact marked.mono follows
  | some phase => exact Locked.Steady.mono steady follows

theorem Noted.mono (noted : Noted n t)
    (rises : FloorLe n.net.lastRecordTimestamp n'.net.lastRecordTimestamp) : Noted n' t :=
  fun observed => (noted observed).trans rises

section

variable (steady : Steady s)

include steady

/-- Records are signed for the saved pointer, or delivered. -/
theorem Steady.sends (node : s'.node = s.node)
    (grows : ∀ i ∈ s'.log, i ∈ s.log ∨ savedPointer s.node = some i.record.hash)
    (sent : s.served ⊆ s'.served)
    (locked : s'.stage = .running → LockSteady s.log s.served s.node s'.locked)
    (stage : s'.stage.Steady s.node)
    (applies : ∀ task t, s'.applies task = some t → s.applies task = some t)
    (idle : s'.stage ≠ .running → ∀ task, s'.applies task = none)
    (taken : ∀ i ∈ s'.taken, i ∈ s'.served) : Steady s' where
  grounded := by
    rw [node]
    exact steady.grounded.mono grows sent
  locked running := by
    rw [node]
    exact (locked running).mono ⟨grows, sent, rfl, rfl, .refl _⟩
  stage := by
    rw [node]
    exact stage
  applies task t runs := by
    obtain ⟨⟨i, member, is⟩, noted⟩ := steady.applies task t (applies task t runs)
    rw [node]
    exact ⟨⟨i, sent member, is⟩, noted⟩
  idle := idle
  taken := taken

variable (running : s.stage = .running)

include running

/-- The holder of the lock of a running network, and the node, change. -/
theorem Steady.holds {locked : Option (Locked Hash)}
    (grounded : Grounded s.log s.served node) (lock : LockSteady s.log s.served node locked)
    (rises : FloorLe s.node.net.lastRecordTimestamp node.net.lastRecordTimestamp) :
    Steady { s with node, locked } where
  grounded := grounded
  locked _ := lock
  stage := by
    rw [running]
    trivial
  applies task t runs := ⟨(steady.applies task t runs).1, (steady.applies task t runs).2.mono rises⟩
  idle := steady.idle
  taken := steady.taken

theorem Steady.resume (task : Nat)
    (is : ∀ t', t = some t' → (∃ i ∈ s.served, i.record = t'.record) ∧ Noted s.node t') :
    Steady { s with applies := Function.update s.applies task t } := by
  refine { steady with
    applies := fun other t' runs => ?_
    idle := fun off => absurd running off }
  exact (update_cases runs).elim (is t') (steady.applies other t')

/-- The node changes next to the holder of the lock. -/
theorem Steady.beside (passed : Passed s.log s.served s.node node)
    (pointer : savedPointer node = savedPointer s.node) :
    Steady { s with node } :=
  steady.holds running (passed.grounded steady.grounded)
    ((steady.locked running).mono
      ⟨fun _ => .inl, fun _ => id, passed.marker, pointer, passed.floor⟩)
    passed.floor

theorem Steady.marked (free : s.locked = none) : Marked s.log s.served (fun _ => True) s.node := by
  have locked := steady.locked running
  rw [free] at locked
  exact locked

theorem Steady.signs (marked : Marked s.log s.served (fun _ => True) s.node)
    (pointer : savedPointer s.node = some hash) (step : s.signs hash timestamp = some (out, s')) :
    Steady s' := by
  cases (Option.ite_none_right_eq_some.1 step).2
  refine steady.sends rfl (fun i logged => ?_) (fun _ => id) (fun _ => marked) ?_
    (fun _ _ => id) steady.idle steady.taken
  · rcases signed_log (s := s) logged rfl rfl with old | rfl
    · exact .inl old
    · exact .inr pointer
  · show s.stage.Steady s.node
    rw [running]
    trivial

end

/-! ## Steps -/

theorem unlocked_noted (noted : Noted n t) (resumes : (unlocked t ok).resume t = some t') :
    Noted n t' := by
  unfold unlocked at resumes
  split at resumes
  · cases ok with
    | true =>
      cases resumes
      exact fun observed => observed.elim
    | false => cases resumes
  · next phase =>
    cases resumes
    exact fun _ => noted (by rw [phase]; trivial)
  · cases resumes

/-- A restart restores the saved pointer, whatever the relay answers. -/
theorem restored_pointer {served : Hash → Bool} {answer : RelayAnswer Hash}
    {saved : NetworkConfig Hash} {restored : RestoredGroupBlob Hash}
    (pointer : saved.lastGroupHash = some hash)
    (answered : saved.lastGroupHashPublished = true → ∀ record compatible,
      answer = .record record compatible → record.hash = hash)
    (restores : restoreRosterFromBlob codec served answer saved.lastGroupHash
      saved.lastGroupHashPublished = some restored) :
    restored.hash = hash ∧ (restored.published = true → saved.lastGroupHashPublished = true) := by
  obtain ⟨⟨target, source⟩, at_target, restores⟩ := Option.bind_eq_some_iff.mp restores
  obtain ⟨blob, -, rfl⟩ := Option.map_eq_some_iff.mp restores
  rw [pointer] at at_target
  cases flag : saved.lastGroupHashPublished with
  | false =>
    rw [flag] at at_target
    cases answer with
    | destroyed | malformed => cases at_target
    | unavailable | record record compatible =>
      cases at_target
      exact ⟨rfl, fun is => absurd is Bool.false_ne_true⟩
  | true =>
    rw [flag] at at_target
    cases answer with
    | destroyed | malformed => cases at_target
    | unavailable =>
      cases at_target
      exact ⟨rfl, fun _ => rfl⟩
    | record record compatible =>
      cases at_target
      exact ⟨answered flag record compatible rfl, fun _ => rfl⟩

theorem updateNetwork_floor (held : n.config = some cfg)
    (held' : (n.updateNetwork disk f).2.config = some cfg')
    (keeps : ∀ cfg, (f cfg).lastRecordTimestamp = cfg.lastRecordTimestamp) :
    cfg'.lastRecordTimestamp = cfg.lastRecordTimestamp := by
  rcases updateNetwork_cases disk f n with ⟨kept, -⟩ | ⟨cfg'', held'', wrote⟩
  · rw [kept] at held'
    cases held.symm.trans held'
    rfl
  · rw [wrote] at held'
    cases held.symm.trans held''
    cases held'
    exact keeps cfg

theorem Begins.steady (begins : Begins codec s) : Steady s := by
  cases begins with
  | founded key group =>
    refine ⟨⟨rfl, rfl, ?_⟩, nofun, rfl, nofun, fun _ _ => rfl, nofun⟩
    rintro _ ⟨⟩ ⟨⟩
  | granted key group record published named =>
    refine ⟨⟨rfl, rfl, ?_⟩, fun _ => nofun, trivial, nofun, fun _ _ => rfl, nofun⟩
    rintro _ ⟨⟩ flag _ ⟨⟩
    have settled : Settled (Publisher.granted codec key group record published).log [⟨record, 0⟩]
        (some record.timestamp) record.hash := by
      refine .of_latest (i := ⟨record, 0⟩) (List.mem_singleton_self _) (fun j logged other => ?_)
        (.refl _)
      cases List.mem_singleton.mp logged
      exact absurd rfl other
    rw [named flag] at settled
    exact ⟨settled, settled⟩

/-- The pointer stays, or moves to a generation that is not published. -/
def OwnMove (n n' : Node Hash) : Prop :=
  savedPointer n' = savedPointer n ∨
    ∃ cfg, n'.config = some cfg ∧ cfg.lastGroupHashPublished = false

/-- A write of the pointer as published leaves it where it is. -/
theorem updateNetwork_ownMove (moves : ∀ cfg, (f cfg).lastGroupHash = some hash)
    (published : ∀ cfg, (f cfg).lastGroupHashPublished = true → savedPointer n = some hash) :
    OwnMove n (n.updateNetwork disk f).2 := by
  rcases updateNetwork_cases disk f n with ⟨same, -⟩ | ⟨cfg, -, written⟩
  · rw [same]
    exact .inl rfl
  · rw [written]
    cases flag : (f cfg).lastGroupHashPublished with
    | true => exact .inl ((moves cfg).trans (published cfg flag).symm)
    | false => exact .inr ⟨f cfg, rfl, flag⟩

/-- No apply run outlives its network. -/
theorem Steady.off (steady : Steady s) (off : s.stage ≠ .running) {stage : Stage Hash}
    (grounded : Grounded s.log s.served node) (idle : stage ≠ .running) (fits : stage.Steady node) :
    Steady { s with node, stage } where
  grounded := grounded
  locked running := absurd running idle
  stage := fits
  applies task t runs := by cases (steady.idle off task).symm.trans runs
  idle _ := steady.idle off
  taken := steady.taken

theorem signs_node (signed : s.signs hash timestamp = some (out, s')) : s'.node = s.node := by
  cases (Option.ite_none_right_eq_some.1 signed).2
  rfl

variable [DecidableEq Hash]

/-- What a step of the lock's holder leaves, read off the pair it gives. -/
theorem Steady.lockStep (steady : Steady s) (aligned : Aligned s) (running : s.stage = .running)
    (held : s.locked = some phase) (taken : phase.step codec turn s.node = (next, node)) :
    Grounded s.log s.served node ∧ next.Steady s.log s.served node ∧ next.Aligned node ∧
      FloorLe s.node.net.lastRecordTimestamp node.net.lastRecordTimestamp := by
  have lock := steady.locked running
  rw [held] at lock
  obtain ⟨-, ready⟩ := aligned.locked phase held
  obtain ⟨grounded, goes⟩ := Locked.step_steady codec turn steady.grounded lock ready
  have signed := Locked.step_aligned codec turn ready
  have floor := Locked.step_floor codec turn s.node phase
  rw [taken] at grounded goes signed floor
  exact ⟨grounded, goes, signed, floor ▸ .refl _⟩

/-- The relay holds a record for a pointer that is published for good. -/
theorem Settled.relay (order : InOrder s) (settled : Settled s.log s.served floor hash)
    (holds : s.relay.map (·.record) = some record) : record.hash = hash := by
  obtain ⟨i, sent, -, after⟩ := settled.known
  obtain ⟨held, at_relay, above⟩ := order.latest i sent
  rw [at_relay] at holds
  cases holds
  by_contra other
  exact absurd (after held (served_log (order.relay held at_relay)) other) (not_lt.mpr above)

/-- A restart saves its sealed roster: what it keeps as published was, and a state that starts
from the saved floor is as good as the one before. -/
theorem Grounded.restored {restored : RestoredGroupBlob Hash} {cfg : NetworkConfig Hash}
    (grounded : Grounded log served n) (held : n.config = some cfg)
    (at_hash : cfg.lastGroupHash = some restored.hash)
    (published : restored.published = true → cfg.lastGroupHashPublished = true) (disk : Disk)
    (hash : Hash) :
    let written := n.updateNetwork disk (repoint restored hash)
    Grounded log served written.2 ∧ ∀ net : NetworkState Hash, net.hasKey = true →
      net.lastRecordTimestamp = cfg.lastRecordTimestamp →
        Grounded log served { written.2 with net } := by
  intro written
  have saved : Grounded log served written.2 := by
    refine grounded.updateNetwork (fun _ _ => rfl) fun cfg' held' flag hash' at_hash' => ?_
    cases held.symm.trans held'
    cases at_hash'
    obtain ⟨was, same⟩ := (Bool.and_eq_true _ _).mp flag
    rw [of_decide_eq_true same]
    exact grounded.flagged cfg held (published was) restored.hash at_hash
  refine ⟨saved, fun net keyed floor => ⟨keyed, saved.pointed, ?_⟩⟩
  intro cfg' held' flag other names
  have settled := (saved.flagged cfg' held' flag other names).2
  have same : cfg'.lastRecordTimestamp = net.lastRecordTimestamp :=
    (updateNetwork_floor held held' fun _ => rfl).trans floor.symm
  exact ⟨same ▸ settled, settled⟩

section

variable (steady : Steady s)

include steady

theorem Steady.serve (moves : s.Moves codec me (.serve disk) out s') : Steady s' := by
  cases moves with
  | @serve _ hash running free converged =>
    have marked := steady.marked running free
    split
    · next published kept =>
      obtain ⟨-, effective⟩ := keptHash_write kept
      have own : false = true → Certified s.log s.served s.node hash :=
        (absurd · Bool.false_ne_true)
      exact steady.holds running steady.grounded
        (.writing rfl (fun flag => marked.effective own (effective.trans flag)) marked) (.refl _)
    · exact steady.holds running steady.grounded marked (.refl _)
    · exact steady.holds running steady.grounded marked (.refl _)

theorem Steady.proceed (aligned : Aligned s) (moves : s.Moves codec me (.proceed turn) out s') :
    Steady s' := by
  cases moves with
  | goes _ running held taken =>
    obtain ⟨grounded, next, -, rises⟩ := steady.lockStep aligned running held taken
    exact steady.holds running grounded next rises
  | @ends phase ok _ node running held taken =>
    obtain ⟨grounded, next, -, rises⟩ := steady.lockStep aligned running held taken
    have free : Steady { s with node, locked := none } := steady.holds running grounded next rises
    unfold Publishing.release
    split
    · next task _ =>
      refine free.resume running task fun t' resumes => ?_
      obtain ⟨t, runs, resumes⟩ := Option.bind_eq_some_iff.mp resumes
      obtain ⟨sent, noted⟩ := free.applies task t runs
      rw [resume_record resumes]
      exact ⟨sent, unlocked_noted noted resumes⟩
    · exact free
  | @signs phase out s' _ hash node running held taken signed =>
    obtain ⟨grounded, next, ready, rises⟩ := steady.lockStep aligned running held taken
    have moved : Steady { s with node, locked := none } := steady.holds running grounded next rises
    exact moved.signs running next ready.2 signed

theorem Steady.advance (timely : Timely s (.advance task disk fetched))
    (moves : s.Moves codec me (.advance task disk fetched) out s') : Steady s' := by
  have resumed : ∀ {t}, s.applies task = some t → ∀ {progress : ApplyProgress Hash} {n},
      (∀ t', progress.resume t = some t' → Noted n t') → ∀ t', progress.resume t = some t' →
        (∃ i ∈ s.served, i.record = t'.record) ∧ Noted n t' := by
    intro t runs progress n later t' resumes
    rw [resume_record resumes]
    exact ⟨(steady.applies task t runs).1, later t' resumes⟩
  cases moves with
  | @answers t progress _ _ _ node running runs free taken =>
    obtain ⟨⟨i, sent, is⟩, noted⟩ := steady.applies task t runs
    obtain ⟨grounded, rises, goes, -⟩ := takeLock_steady codec me disk task steady.grounded
      (steady.marked running free) sent (served_log sent) is noted (timely t runs)
    rw [taken] at grounded rises goes
    obtain ⟨marked, later⟩ := goes progress rfl
    have moved : Steady { s with node } :=
      steady.holds running grounded (by rw [free]; exact marked) rises
    exact moved.resume running task (resumed runs later)
  | @locks t phase _ _ _ node running runs free taken =>
    obtain ⟨⟨i, sent, is⟩, noted⟩ := steady.applies task t runs
    obtain ⟨grounded, rises, -, locks⟩ := takeLock_steady codec me disk task steady.grounded
      (steady.marked running free) sent (served_log sent) is noted (timely t runs)
    rw [taken] at grounded rises locks
    exact steady.holds running grounded (locks phase rfl) rises
  | advances _ _ _ running runs free =>
    obtain ⟨passed, later⟩ := advance_passed s.log s.served codec me disk fetched s.node free
      (steady.applies task _ runs).2
    obtain ⟨beside, -⟩ := advance_unlocked codec me disk fetched s.node free
    exact (steady.beside running passed beside.pointer).resume running task (resumed runs later)

theorem Steady.deliver (moves : s.Moves codec me (.deliver packet answered) out s') :
    Steady s' := by
  cases moves with
  | @deliver issued awaited _ _ at_packet =>
    refine steady.sends rfl (fun i logged => .inl (delivered_log at_packet rfl rfl logged))
      (fun i member => List.mem_append_left _ member) steady.locked steady.stage
      (fun _ _ => id) steady.idle fun i member => ?_
    have old : ∀ i ∈ s.taken, i ∈ s.served ++ [issued] := fun i member =>
      List.mem_append_left _ (steady.taken i member)
    dsimp only at member
    split at member
    · rcases List.mem_append.mp member with before | now
      · exact old i before
      · exact List.mem_append_right _ now
    · exact old i member

theorem Steady.load (order : InOrder s) (alone : Alone s (.load restart))
    (moves : s.Moves codec me (.load restart) out s') : Steady s' := by
  cases moves with
  | @load saved restored _ stage held restores =>
    obtain ⟨hash, pointer⟩ := Option.isSome_iff_exists.mp steady.grounded.pointed
    have at_hash : saved.lastGroupHash = some hash := by
      rw [savedPointer, held] at pointer
      exact pointer
    have answered : saved.lastGroupHashPublished = true → ∀ record compatible,
        restart.answer = .record record compatible → record.hash = hash := by
      intro flag record compatible answer
      have holds := alone record (by rw [answer]; rfl)
      exact (steady.grounded.flagged saved held flag hash at_hash).1.relay order holds
    obtain ⟨same, published⟩ := restored_pointer at_hash answered restores
    exact steady.off (by simp [stage]) (steady.grounded.withBlobs _) (by simp)
      ⟨saved, held, rfl, by rw [same]; exact at_hash, published⟩
  | unloaded => exact steady

theorem Steady.save (moves : s.Moves codec me (.save disk) out s') : Steady s' := by
  have from_saved := steady.stage
  cases moves with
  | save _ stage saved =>
    rw [stage] at from_saved
    obtain ⟨cfg, held, at_floor, at_hash, published⟩ := from_saved
    obtain ⟨-, rebuilt⟩ := steady.grounded.restored held at_hash published disk _
    exact steady.off (by simp [stage]) (rebuilt _ rfl at_floor.symm) (by simp) rfl
  | unsaved _ stage =>
    rw [stage] at from_saved
    obtain ⟨cfg, held, -, at_hash, published⟩ := from_saved
    obtain ⟨kept, -⟩ := steady.grounded.restored held at_hash published disk _
    exact steady.off (by simp [stage]) kept (by simp) trivial

theorem Steady.start (aligned : Aligned s) (moves : s.Moves codec me (.start timestamp) out s') :
    Steady s' := by
  cases moves with
  | start _ stage signed =>
    have unmarked := steady.stage
    have both := aligned.stage
    rw [stage] at unmarked both
    have marked : Marked s.log s.served (fun _ => True) s.node := by
      intro pending held
      cases unmarked.symm.trans held
    have up : Steady { s with stage := .running } :=
      { steady with
        locked := fun _ => by rw [aligned.idle (by simp [stage])]; exact marked
        stage := trivial
        idle := fun down => absurd rfl down }
    exact up.signs rfl marked both.2 signed

theorem Steady.moves (aligned : Aligned s) (order : InOrder s) (orderly : Orderly codec s act)
    (moves : s.Moves codec me act out s') : Steady s' := by
  have moved := moves
  cases moves with
  | serve => exact steady.serve moved
  | goes | ends | signs => exact steady.proceed aligned moved
  | answers | locks | advances => exact steady.advance orderly.timely moved
  | deliver => exact steady.deliver moved
  | load | unloaded => exact steady.load order orderly.alone moved
  | save | unsaved => exact steady.save moved
  | start => exact steady.start aligned moved
  | write group refreshes running =>
    refine steady.beside running ⟨fun grounded => grounded.withNet ?_ ?_, ?_, ?_⟩ ?_
    all_goals split <;> first | rfl | exact .refl _
  | commit running free =>
    exact steady.holds running steady.grounded (.idle rfl (steady.marked running free)) (.refl _)
  | seat group running free =>
    have marked := steady.marked running free
    exact steady.holds running (steady.grounded.withNet rfl (.refl _))
      (.idle rfl (marked.congr rfl rfl (.refl _))) (.refl _)
  | publish disk running free =>
    have marked := steady.marked running free
    refine steady.holds running steady.grounded ?_ (.refl _)
    split
    · exact .writing rfl (absurd · Bool.false_ne_true) marked
    · exact .idle rfl marked
  | receive task record source deviceCert running =>
    refine steady.resume running task ?_
    rintro _ ⟨⟩
    exact ⟨orderly.alone, fun observed => observed.elim⟩
  | @confirm issued packet disk running free at_packet =>
    have sent := steady.taken issued (List.mem_of_getElem? at_packet)
    obtain ⟨passed, pointer⟩ :=
      confirmPublication_passed disk sent (orderly.timely issued at_packet)
    have moved := steady.beside running passed pointer
    exact { moved with
      taken := fun other member => steady.taken other (List.mem_of_mem_eraseIdx member) }
  | crash =>
    refine steady.sends rfl (fun i logged => .inl ?_) (fun _ => id) (by simp) trivial (by simp)
      (fun _ _ => rfl) (by simp)
    rw [Publishing.log, List.map_map] at logged
    exact logged
  | store disk stage =>
    have from_saved := steady.stage
    rw [stage] at from_saved
    exact steady.off (by simp [stage]) (steady.grounded.withBlobs _) (by simp) from_saved
  | unstored disk stage => exact steady.off (by simp [stage]) steady.grounded (by simp) trivial

end

theorem Steady.step (steady : Steady s) (aligned : Aligned s) (order : InOrder s)
    (orderly : Orderly codec s act) (step : publishStep codec me s act = some (out, s')) :
    Steady s' := by
  obtain ⟨⟨_, s₁⟩, went, same⟩ := Option.map_eq_some_iff.mp step
  cases same
  exact { steady.moves aligned order orderly (Publishing.step_moves went) with }

/-! ## The pointer moves to generations of its own -/

theorem Locked.step_ownMove (codec : GroupCodec Hash) (turn : Turn) {phase : Locked Hash}
    (steady : phase.Steady log served n) :
    OwnMove n (phase.step codec turn n).2 := by
  cases phase with
  | writePointer holder hash published =>
    refine updateNetwork_ownMove (fun _ => rfl) fun _ flag => ?_
    subst flag
    exact (steady.certified hash rfl).1
  | _ =>
    -- the others leave the config alone
    refine .inl ?_
    unfold Locked.step
    dsimp only
    repeat' split
    all_goals rfl

theorem takeLock_pointer (codec : GroupCodec Hash) (me : EndpointId) (disk : Disk) (task : Nat)
    (t : ApplyTask Hash) (n : Node Hash) :
    savedPointer (takeLock codec me disk task t n).2 = savedPointer n := by
  unfold takeLock
  repeat' split
  all_goals rfl

theorem Steady.ownMove (steady : Steady s)
    (step : publishStep codec me s act = some (out, s')) : OwnMove s.node s'.node := by
  obtain ⟨⟨_, s₁⟩, went, same⟩ := Option.map_eq_some_iff.mp step
  cases same
  have locked : ∀ {turn phase next node}, s.stage = .running → s.locked = some phase →
      phase.step codec turn s.node = (next, node) → OwnMove s.node node := by
    intro turn phase next node running held taken
    have lock := steady.locked running
    rw [held] at lock
    have own := Locked.step_ownMove codec turn lock
    rw [taken] at own
    exact own
  have repointed : ∀ {restored group floor} disk, s.stage = .sealed restored group floor →
      OwnMove s.node (s.node.updateNetwork disk
        (repoint restored (codec.groupBlobHash group))).2 := by
    intro restored group floor disk stage
    have from_saved := steady.stage
    rw [stage] at from_saved
    obtain ⟨cfg, held, -, at_hash, -⟩ := from_saved
    refine updateNetwork_ownMove (fun _ => rfl) fun _ flag => ?_
    obtain ⟨-, same⟩ := (Bool.and_eq_true _ _).mp flag
    rw [of_decide_eq_true same, savedPointer, held]
    exact at_hash
  show OwnMove s.node s₁.node
  cases Publishing.step_moves went with
  | write | commit | seat | publish | serve | receive | deliver | crash | load | unloaded
  | store | unstored => exact .inl rfl
  | goes turn running held taken => exact locked running held taken
  | ends turn running held taken =>
    unfold Publishing.release
    split <;> exact locked running held taken
  | signs turn running held taken signed =>
    rw [signs_node signed]
    exact locked running held taken
  | @answers t progress task disk served node running runs free taken
  | @locks t phase task disk served node running runs free taken =>
    have locking := takeLock_pointer codec me disk task t s.node
    rw [taken] at locking
    exact .inl locking
  | advances task disk served running runs free =>
    obtain ⟨beside, -⟩ := advance_unlocked codec me disk served s.node free
    exact .inl beside.pointer
  | @confirm issued packet disk running free at_packet =>
    have beside : Beside
        { s.node with net := s.node.net.raiseRecordFloor issued.record.timestamp }
        (s.node.confirmPublication disk issued.record.hash issued.record.timestamp).2 :=
      .updateNetwork fun _ => rfl
    exact .inl beside.pointer
  | save disk stage saved | unsaved disk stage => exact repointed disk stage
  | start timestamp stage signed =>
    rw [signs_node signed]
    exact .inl rfl

/-! ## Every run -/

section

variable {s₀ : Publishing Hash} (begins : Begins codec s₀)
  (reached : Run (fun s act out s' => publishStep codec me s act = some (out, s')) s₀ h s)

include begins reached

theorem Aligned.run (undisturbed : ∀ e ∈ h, Undisturbed codec e.before e.act) : Aligned s :=
  reached.invariant undisturbed begins.aligned
    fun _ _ step undisturbed aligned => aligned.step undisturbed step

theorem InOrder.run : InOrder s :=
  reached.preserves begins.inOrder fun step order => order.step step

theorem Steady.run (orderly : ∀ e ∈ h, Orderly codec e.before e.act) : Steady s := by
  refine reached.invariant orderly begins.steady fun reached before step orderly steady => ?_
  have aligned := Aligned.run begins reached fun e member => (before e member).undisturbed
  exact steady.step aligned (InOrder.run begins reached) orderly step

end

/-- A saved pointer has its blob and is published only if named; while nobody encodes the
group under the feet of the lock's holder, only the current, stored and saved pointer is
signed; and with a single coordinator whose apply runs are timely the pointer moves only to
generations of its own, and the relay never goes back to an earlier one. -/
theorem publish_safe {h : PublishHistory Hash} {s₀ : Publishing Hash} (begins : Begins codec s₀)
    (run : Run (fun s act out s' => publishStep codec me s act = some (out, s')) s₀ h s) :
    (∀ hash, savedPointer s.node = some hash → hash ∈ s.node.blobs) ∧
      (∀ cfg, s.node.config = some cfg → cfg.lastGroupHashPublished = true →
        ∀ hash, cfg.lastGroupHash = some hash → Named s₀ h hash) ∧
      ((∀ e ∈ h, Undisturbed codec e.before e.act) →
        ∀ e ∈ h, ∀ issued, e.out = .signed issued → Covered e.before issued) ∧
      ((∀ e ∈ h, Orderly codec e.before e.act) → ∀ e ∈ h,
        OwnMove e.before.node e.after.node ∧
          ∀ held, e.before.relay = some held →
            ∃ kept, e.after.relay = some kept ∧ held.generation ≤ kept.generation) := by
  have sound := Sound.run begins run
  refine ⟨sound.saved.stored, sound.saved.flagged, ?_, ?_⟩
  · rintro undisturbed ⟨before, act, out, after⟩ member issued rfl
    obtain ⟨h', part, start⟩ := run.before member
    have aligned := Aligned.run begins start fun e member => undisturbed e (part member)
    exact aligned.covered (Sound.run begins start) (run.entry_step member)
  · rintro orderly e member
    obtain ⟨pre, post, rfl⟩ := List.append_of_mem member
    obtain ⟨start, step, -⟩ := run.split rfl
    have steady := Steady.run begins start fun e member => orderly e (List.mem_append_left _ member)
    refine ⟨steady.ownMove step, fun held holds => ?_⟩
    obtain ⟨⟨_, s₁⟩, went, same⟩ := Option.map_eq_some_iff.mp step
    obtain ⟨kept, at_relay, le⟩ := (InOrder.run begins start).relay_le (step_sends went) holds
    refine ⟨kept, ?_, le⟩
    rw [← (Prod.mk.inj same).2]
    exact at_relay

/-! ## Two runs -/

section Conditions

variable (codec s)

instance : DecidablePred (Undisturbed codec s) := fun act => by
  unfold Undisturbed
  split <;> infer_instance

instance : DecidablePred (Alone s) := fun act => by
  cases act <;> dsimp only [Alone] <;> infer_instance

instance (record : SignedGroupRecord Hash) : Decidable (Latest s.log record) :=
  inferInstanceAs (Decidable (∀ i ∈ s.log, _))

instance : Decidable (Encoded s.node) :=
  inferInstanceAs (Decidable (_ ∨ ∃ pending ∈ s.node.net.unconfirmedDurableHash, _))

instance : DecidablePred (Timely s) := fun act => by
  cases act <;> dsimp only [Timely] <;> infer_instance

instance : DecidablePred (Orderly codec s) := fun act =>
  decidable_of_iff (Undisturbed codec s act ∧ Alone s act ∧ Timely s act)
    ⟨fun ⟨undisturbed, alone, timely⟩ => ⟨undisturbed, alone, timely⟩,
      fun ⟨undisturbed, alone, timely⟩ => ⟨undisturbed, alone, timely⟩⟩

end Conditions

/-- A step of the holder on a healthy disk. -/
def healthyTurn (timestamp : Nat) : Turn := ⟨healthyDisk, true, pairGroup, true, timestamp⟩

/-- Node 1 admits node 2 and signs the roster, which the relay takes. The record comes back
to it, and after a crash it restores what the relay holds. -/
def publishedActs : List (PublishAct GroupBlob) :=
  [.start 1, .deliver 0 true, .confirm 0 healthyDisk, .seat pairGroup] ++
    List.replicate 7 (.proceed (healthyTurn 2)) ++
    [.deliver 0 true, .receive 0 ⟨pairGroup, 2⟩ .relay none] ++
    List.replicate 2 (.advance 0 healthyDisk true) ++ [.confirm 0 healthyDisk] ++
    List.replicate 5 (.advance 0 healthyDisk true) ++
    [.crash, .load ⟨1, none, ∅, healthyDisk, fun _ => true, .record ⟨pairGroup, 2⟩ true, 0, true⟩,
      .store healthyDisk, .save healthyDisk, .start 3, .deliver 0 false]

def publishedRun : PublishHistory GroupBlob × Publishing GroupBlob :=
  executed (publishStep plainCodec 1) (founded plainCodec 7 soleGroup) publishedActs

theorem publishedRun_safe :
    publishedRun.2.relay.map (·.generation) = some 2 ∧
      (∀ e ∈ publishedRun.1, ∀ issued, e.out = .signed issued → Covered e.before issued) ∧
      ∀ e ∈ publishedRun.1, OwnMove e.before.node e.after.node ∧
        ∀ held, e.before.relay = some held →
          ∃ kept, e.after.relay = some kept ∧ held.generation ≤ kept.generation := by
  obtain ⟨-, -, signed, moves⟩ := publish_safe (.founded 7 soleGroup)
    (run_executed publishedActs (by decide +kernel) :
      Run (fun s act out s' => publishStep plainCodec 1 s act = some (out, s'))
        (founded plainCodec 7 soleGroup) publishedRun.1 publishedRun.2)
  have orderly : ∀ e ∈ publishedRun.1, Orderly plainCodec e.before e.act := by decide +kernel
  exact ⟨by decide +kernel, signed fun e member => (orderly e member).undisturbed, moves orderly⟩

/-- The pair, with node 3 accepted. -/
def acceptedGroup : GroupBlob :=
  { pairGroup with approved := KeyedMap.empty.insert ⟨3, some ['c'], none, none⟩ }

/-- Node 1 admits node 2, and node 3 is accepted between the commit and the signature. -/
def acceptedActs : List (PublishAct GroupBlob) :=
  [.start 1, .seat pairGroup] ++ List.replicate 5 (.proceed (healthyTurn 2)) ++
    [.write acceptedGroup true] ++ List.replicate 2 (.proceed (healthyTurn 2))

def acceptedRun : PublishHistory GroupBlob × Publishing GroupBlob :=
  executed (publishStep plainCodec 1) (founded plainCodec 7 soleGroup) acceptedActs

/-- The admission signs a roster that is neither stored nor saved. -/
theorem admission_signs_unsaved :
    Run (fun s act out s' => publishStep plainCodec 1 s act = some (out, s'))
        (founded plainCodec 7 soleGroup) acceptedRun.1 acceptedRun.2 ∧
      ∃ e ∈ acceptedRun.1, e.out = .signed ⟨⟨acceptedGroup, 2⟩, 1⟩ ∧
        acceptedGroup ∉ e.before.node.blobs ∧ savedPointer e.before.node = some pairGroup :=
  ⟨run_executed acceptedActs (by decide +kernel), by decide +kernel⟩

/-- The record of the group before the admission comes back while node 3's acceptance is
encoded and not saved: nothing protects the pair, and the old group is adopted and published
again. -/
def revertedActs : List (PublishAct GroupBlob) :=
  [.start 1, .deliver 0 true, .seat pairGroup] ++ List.replicate 7 (.proceed (healthyTurn 2)) ++
    [.deliver 0 true, .write acceptedGroup true, .receive 0 ⟨soleGroup, 1⟩ .relay none] ++
    List.replicate 7 (.advance 0 healthyDisk true) ++ List.replicate 4 (.proceed (healthyTurn 3)) ++
    .publish healthyDisk :: List.replicate 5 (.proceed (healthyTurn 3)) ++ [.deliver 0 true]

/-- Nothing disturbs the holder of the lock and nobody else signs, and yet the relay goes
back. -/
theorem untimely_relay_goes_back :
    let (h, s) := executed (publishStep plainCodec 1) (founded plainCodec 7 soleGroup) revertedActs
    Run (fun s act out s' => publishStep plainCodec 1 s act = some (out, s'))
        (founded plainCodec 7 soleGroup) h s ∧
      (∀ e ∈ h, Undisturbed plainCodec e.before e.act ∧ Alone e.before e.act) ∧
      (∃ e ∈ h, e.before.relay.map (·.record) = some ⟨pairGroup, 2⟩) ∧
      s.relay.map (·.record) = some ⟨soleGroup, 3⟩ :=
  ⟨run_executed revertedActs (by decide +kernel), by decide +kernel⟩

end Rayfish.Publisher
