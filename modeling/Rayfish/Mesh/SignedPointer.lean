import Rayfish.Mesh.PublishSafety

/-!
# What a coordinator signs

The publisher signs a saved pointer that it is converged on. An admission signs what it is
converged on when its commit has succeeded: the saved pointer, unless a command that does not
hold the lock has encoded the group in between (`Undisturbed`, `Aligned`). `Sends` lists what
a step does to the records under way.
-/

namespace Rayfish.Publisher

open Lib

variable {Hash : Type}

/-! ## The holder of the lock -/

variable {phase : Locked Hash} {hash : Hash}

section Holders

variable {n n' : Node Hash}

/-- The holder works on the group the state is converged on, and what it signs is saved. -/
def Locked.Aligned (n : Node Hash) : Locked Hash → Prop
  | .storeSnapshot _ hash | .checkSnapshot _ hash | .readBlob _ hash _ _ | .storeBlob _ hash _
  | .writePointer _ hash _ => n.net.convergedHash = some hash
  | .settle _ hash _ saved =>
    n.net.convergedHash = some hash ∧ (saved = true → savedPointer n = some hash)
  | .target => n.net.convergedHash = savedPointer n
  | .inspectBlob hash | .sign hash => savedPointer n = some hash
  | _ => True

theorem Locked.Aligned.congr (aligned : phase.Aligned n)
    (converged : n'.net.convergedHash = n.net.convergedHash)
    (pointer : savedPointer n' = savedPointer n) : phase.Aligned n' := by
  unfold Locked.Aligned at aligned ⊢
  rw [converged, pointer]
  exact aligned

/-- Where a step of the holder leads is aligned again, and it signs the saved pointer. -/
def Next.Aligned (n : Node Hash) : Next Hash → Prop
  | .go phase => phase.Aligned n
  | .sign hash => n.net.convergedHash = some hash ∧ savedPointer n = some hash
  | .done _ => True

theorem Holder.after_aligned (holder : Holder)
    (settled : ok = true → n.net.convergedHash = savedPointer n) :
    (holder.after ok).Aligned n := by
  cases holder with
  | admission attempt =>
    cases ok with
    | false => cases attempt <;> trivial
    | true =>
      cases attempt with
      | seated | retained => exact settled rfl
      | undone => trivial
  | publish => cases ok <;> trivial
  | edit | apply task | serve => trivial

/-- A pointer write that is reported as saved. -/
theorem setPointer_saved
    (saved : (n.updateNetwork disk (·.setPointer hash published floor)).1 = .saved) :
    savedPointer (n.updateNetwork disk (·.setPointer hash published floor)).2 = some hash := by
  rcases updateNetwork_cases disk (·.setPointer hash published floor) n with
    ⟨-, failed⟩ | ⟨cfg, -, written⟩
  · exact absurd saved failed
  · rw [written]
    rfl

theorem loadNetwork_pointer [DecidableEq Hash]
    (found : (n.loadNetwork disk).any (fun cfg => cfg.lastGroupHash = some hash) = true) :
    savedPointer n = some hash := by
  unfold Node.loadNetwork at found
  split at found
  · cases held : n.config with
    | none =>
      rw [held] at found
      cases found
    | some cfg =>
      rw [held] at found
      rw [savedPointer, held]
      exact of_decide_eq_true found
  · cases found

variable [DecidableEq Hash]

theorem converged_of_current {net : NetworkState Hash}
    (current : ¬net.needsReconverge hash = true) :
    net.convergedHash = some hash := by
  unfold NetworkState.needsReconverge trustedReconvergeHash at current
  split at current
  · assumption
  · exact absurd rfl current

theorem confirmDurable_converged (net : NetworkState Hash) (hash : Hash) :
    (net.confirmCurrentGroupHashDurable hash).convergedHash = net.convergedHash := by
  unfold NetworkState.confirmCurrentGroupHashDurable
  split <;> rfl

theorem Locked.step_aligned (codec : GroupCodec Hash) (turn : Turn) (aligned : phase.Aligned n) :
    (phase.step codec turn n).1.Aligned (phase.step codec turn n).2 := by
  cases phase with
  | encode holder =>
    rw [Locked.step]
    split
    · exact holder.after_aligned (absurd · Bool.false_ne_true)
    · rfl
  | storeSnapshot holder hash | storeBlob holder hash published =>
    rw [Locked.step]
    split
    · exact aligned
    · exact holder.after_aligned (absurd · Bool.false_ne_true)
  | checkSnapshot holder hash =>
    rw [Locked.step]
    split
    · exact aligned
    · trivial
  | persist holder hash published =>
    rw [Locked.step]
    split
    · exact holder.after_aligned (absurd · Bool.false_ne_true)
    · next current => exact not_not.mp (not_or.mp current).2
  | readBlob holder hash published held =>
    rw [Locked.step]
    split
    · exact aligned
    · split
      · exact aligned
      · exact holder.after_aligned (absurd · Bool.false_ne_true)
  | writePointer holder hash published =>
    refine ⟨?_, fun saved => setPointer_saved (of_decide_eq_true saved)⟩
    exact (congrArg _ (updateNetwork_frame _ _ n).2).trans aligned
  | settle holder hash published saved =>
    refine holder.after_aligned fun ok => ?_
    obtain ⟨converged, pointer⟩ := aligned
    subst ok
    exact (confirmDurable_converged n.net hash).trans (converged.trans (pointer rfl).symm)
  | choose =>
    rw [Locked.step]
    split
    · dsimp only
      split <;> trivial
    · trivial
  | inspect hash =>
    rw [Locked.step]
    split <;> trivial
  | inspectSaved hash =>
    rw [Locked.step]
    split
    · next found => exact loadNetwork_pointer found
    · trivial
  | inspectBlob hash =>
    rw [Locked.step]
    dsimp only
    split
    · exact aligned
    · trivial
  | sign hash =>
    rw [Locked.step]
    dsimp only
    split
    · trivial
    · next current => exact ⟨converged_of_current current, aligned⟩
  | target =>
    rw [Locked.step]
    split
    · next hash converged =>
      split
      · exact aligned.symm.trans converged
      · trivial
    · trivial
  | undo | retain => trivial

end Holders

/-! ## Converged and saved -/

/-- A restart is converged on what it has saved. -/
def Stage.Aligned (n : Node Hash) : Stage Hash → Prop
  | .starting hash => n.net.convergedHash = some hash ∧ savedPointer n = some hash
  | _ => True

structure Aligned (s : Publishing Hash) : Prop where
  locked : ∀ phase, s.locked = some phase → s.stage = .running ∧ phase.Aligned s.node
  stage : s.stage.Aligned s.node

section Frames

variable {s s' : Publishing Hash}

theorem Aligned.idle (aligned : Aligned s) (off : s.stage ≠ .running) : s.locked = none := by
  cases held : s.locked with
  | none => rfl
  | some phase => exact absurd (aligned.locked phase held).1 off

/-- Nobody holds the lock of a running network. -/
theorem Aligned.free (running : s.stage = .running) (free : s.locked = none) : Aligned s :=
  ⟨by rw [free]; nofun, by rw [running]; trivial⟩

/-- The lock of a running network is held. -/
theorem Aligned.held (running : s.stage = .running) (held : s.locked = some phase)
    (aligned : phase.Aligned s.node) : Aligned s := by
  refine ⟨fun other at_other => ?_, by rw [running]; trivial⟩
  cases held.symm.trans at_other
  exact ⟨running, aligned⟩

/-- The lock stays where it is, and what the holder looks at does not change. -/
theorem Aligned.beside (aligned : Aligned s) (running : s.stage = .running)
    (stage : s'.stage = s.stage) (locked : s'.locked = s.locked)
    (converged : s'.node.net.convergedHash = s.node.net.convergedHash)
    (pointer : savedPointer s'.node = savedPointer s.node) : Aligned s' := by
  refine ⟨fun phase held => ?_, by rw [stage, running]; trivial⟩
  rw [locked] at held
  rw [stage]
  exact ⟨running, (aligned.locked phase held).2.congr converged pointer⟩

/-- Nobody holds the lock while the network is down. -/
theorem Aligned.off (aligned : Aligned s) (off : s.stage ≠ .running) (locked : s'.locked = s.locked)
    (stage : s'.stage.Aligned s'.node) : Aligned s' := by
  refine ⟨fun phase held => ?_, stage⟩
  cases (aligned.idle off).symm.trans (locked.symm.trans held)

theorem Begins.aligned (begins : Begins codec s) : Aligned s := by
  cases begins with
  | founded key group => exact ⟨nofun, rfl, rfl⟩
  | granted key group record published named => exact ⟨nofun, trivial⟩

end Frames

/-! ## Records under way -/

/-- The records under way, and who signed, are as before. -/
structure Still (s s' : Publishing Hash) : Prop where
  inFlight : s'.inFlight.map Prod.fst = s.inFlight.map Prod.fst
  served : s'.served = s.served
  relay : s'.relay = s.relay
  clock : s'.clock = s.clock
  moves : s'.moves = s.moves

/-- What a step does to the records under way. -/
inductive Sends (s : Publishing Hash) : PublishOut Hash → Publishing Hash → Prop where
  | still : (∀ issued, out ≠ .signed issued) → Still s s' → Sends s out s'
  | signs {hash : Hash} :
      s.stage = .starting hash ∨
        s.locked = some (.sign hash) ∧ s.node.net.convergedHash = some hash →
      s.clock < timestamp → s'.node = s.node →
      s'.inFlight = s.inFlight ++ [(⟨⟨hash, timestamp⟩, s.moves⟩, true)] →
      s'.served = s.served → s'.relay = s.relay → s'.clock = timestamp → s'.moves = s.moves →
      Sends s (.signed ⟨⟨hash, timestamp⟩, s.moves⟩) s'
  | delivers : (∀ issued, out ≠ .signed issued) → s.inFlight[packet]? = some (issued, awaited) →
      s'.inFlight = s.inFlight.eraseIdx packet → s'.served = s.served ++ [issued] →
      s'.relay = some (keepLatest s.relay issued) → s'.clock = s.clock → s'.moves = s.moves →
      Sends s out s'

section Steps

variable {codec : GroupCodec Hash} {me : EndpointId} {s s' : Publishing Hash}
  {act : PublishAct Hash} {out : PublishOut Hash}

theorem Sends.quiet (still : Still s s') : Sends s .quiet s' := .still nofun still

theorem signs_sends (stage : Stage Hash)
    (ready : s.stage = .starting hash ∨
      s.locked = some (.sign hash) ∧ s.node.net.convergedHash = some hash)
    (step : { s with stage }.signs hash timestamp = some (out, s')) : Sends s out s' := by
  obtain ⟨later, step⟩ := Option.ite_none_right_eq_some.1 step
  cases step
  exact .signs ready later rfl rfl rfl rfl rfl rfl

theorem signs_free (signed : s.signs hash timestamp = some (out, s'))
    (running : s.stage = .running) :
    Aligned s' := by
  cases (Option.ite_none_right_eq_some.1 signed).2
  exact .free running rfl

variable [DecidableEq Hash]

theorem step_signs {turn : Turn} {n node : Node Hash}
    (step : phase.step codec turn n = (.sign hash, node)) :
    phase = .sign hash ∧ node = n ∧ n.net.convergedHash = some hash := by
  have after : ∀ (holder : Holder) ok, holder.after ok ≠ .sign hash := by
    intro holder ok
    cases holder with
    | admission attempt => cases attempt <;> cases ok <;> nofun
    | publish => cases ok <;> nofun
    | edit | apply task | serve => nofun
  cases phase with
  | sign other =>
    rw [Locked.step] at step
    split at step
    · cases step
    · next current =>
      cases step
      exact ⟨rfl, rfl, converged_of_current current⟩
  | _ =>
    -- the others go on or are done
    unfold Locked.step at step
    dsimp only at step
    repeat' split at step
    all_goals first | cases step | exact absurd (congrArg Prod.fst step) (after _ _)

theorem step_sends (step : s.step codec me act = some (out, s')) : Sends s out s' := by
  cases Publishing.step_moves step with
  | write | commit | seat | publish | serve | goes | answers | locks | advances | confirm
  | store | unstored | save | unsaved => exact .quiet ⟨rfl, rfl, rfl, rfl, rfl⟩
  | receive => exact .still nofun ⟨rfl, rfl, rfl, rfl, rfl⟩
  | ends turn running held taken =>
    refine .quiet ?_
    unfold Publishing.release
    split <;> exact ⟨rfl, rfl, rfl, rfl, rfl⟩
  | signs turn running held taken signed =>
    obtain ⟨rfl, rfl, converged⟩ := step_signs taken
    exact signs_sends s.stage (.inr ⟨held, converged⟩) signed
  | deliver packet answered at_packet =>
    refine .delivers ?_ at_packet rfl rfl rfl rfl rfl
    cases answered <;> nofun
  | crash =>
    refine .quiet ⟨?_, rfl, rfl, rfl, rfl⟩
    rw [List.map_map]
    rfl
  | load restart | unloaded restart =>
    refine .still (fun issued => ?_) ⟨rfl, rfl, rfl, rfl, rfl⟩
    unfold heard
    split <;> nofun
  | start timestamp stage signed => exact signs_sends .running (.inl stage) signed

/-! ## Every step -/

/-- A command that encodes the group without the lock does so only while nobody holds it, or
it encodes what is current already. -/
def Undisturbed (codec : GroupCodec Hash) (s : Publishing Hash) : PublishAct Hash → Prop
  | .write group true =>
    s.locked = none ∨ s.node.net.convergedHash = some (codec.groupBlobHash group)
  | _ => True

theorem takeLock_aligned (taken : takeLock codec me disk task t n = (.inr phase, node)) :
    phase.Aligned node := by
  unfold takeLock at taken
  repeat' split at taken
  all_goals cases taken
  all_goals trivial

theorem Aligned.moves (aligned : Aligned s) (undisturbed : Undisturbed codec s act)
    (moves : s.Moves codec me act out s') : Aligned s' := by
  cases moves with
  | write group refreshes running =>
    cases refreshes with
    | false => exact aligned.beside running rfl rfl rfl rfl
    | true =>
      rcases undisturbed with free | same
      · exact .free running free
      · exact aligned.beside running rfl rfl same.symm rfl
  | commit running free | seat group running free => exact .held running rfl trivial
  | publish disk running free =>
    refine .held running rfl ?_
    split <;> trivial
  | serve disk running free converged =>
    split
    · exact .held running rfl trivial
    · exact .free running rfl
    · exact .free running rfl
  | goes turn running held taken =>
    have next := Locked.step_aligned codec turn (aligned.locked _ held).2
    rw [taken] at next
    exact .held running rfl next
  | ends turn running held taken =>
    unfold Publishing.release
    split
    · exact .free running rfl
    · exact .free running rfl
  | signs turn running held taken signed => exact signs_free signed running
  | receive task record source deviceCert running => exact aligned.beside running rfl rfl rfl rfl
  | answers task disk served running runs free taken
  | confirm packet disk running free at_packet => exact .free running free
  | locks task disk served running runs free taken =>
    exact .held running rfl (takeLock_aligned taken)
  | advances task disk served running runs free =>
    obtain ⟨beside, -⟩ := advance_unlocked codec me disk served s.node free
    exact aligned.beside running rfl rfl beside.converged beside.pointer
  | deliver packet answered at_packet => exact ⟨aligned.locked, aligned.stage⟩
  | crash => exact ⟨nofun, trivial⟩
  | load restart stage held restores => exact aligned.off (by rw [stage]; nofun) rfl trivial
  | unloaded restart stage => exact aligned
  | store disk stage | unstored disk stage | unsaved disk stage =>
    exact aligned.off (by rw [stage]; nofun) rfl trivial
  | save disk stage saved =>
    refine aligned.off (by rw [stage]; nofun) rfl ⟨rfl, ?_⟩
    rcases updateNetwork_cases disk _ s.node with ⟨-, failed⟩ | ⟨cfg, -, written⟩
    · exact absurd saved failed
    · exact congrArg savedPointer written
  | start timestamp stage signed => exact signs_free signed rfl

theorem Aligned.step (aligned : Aligned s) (undisturbed : Undisturbed codec s act)
    (step : publishStep codec me s act = some (out, s')) : Aligned s' := by
  obtain ⟨⟨_, s₁⟩, went, same⟩ := Option.map_eq_some_iff.mp step
  cases same
  have moved := aligned.moves undisturbed (Publishing.step_moves went)
  exact ⟨moved.locked, moved.stage⟩

/-- The record names what is current, stored and saved, and carries the number of this
generation. -/
structure Covered (s : Publishing Hash) (issued : Issued Hash) : Prop where
  converged : s.node.net.convergedHash = some issued.record.hash
  stored : issued.record.hash ∈ s.node.blobs
  pointer : savedPointer s.node = some issued.record.hash
  generation : issued.generation = s.moves

theorem Aligned.covered (aligned : Aligned s) (sound : Sound codec named s)
    (step : publishStep codec me s act = some (.signed issued, s')) : Covered s issued := by
  obtain ⟨⟨_, s₁⟩, went, same⟩ := Option.map_eq_some_iff.mp step
  cases same
  have covered : ∀ {hash}, s.node.net.convergedHash = some hash → savedPointer s.node = some hash →
      ∀ timestamp, Covered s ⟨⟨hash, timestamp⟩, s.moves⟩ := fun converged pointer _ =>
    ⟨converged, sound.saved.stored _ pointer, pointer, rfl⟩
  cases step_sends went with
  | still quiet | delivers quiet => exact absurd rfl (quiet issued)
  | signs ready =>
    rcases ready with stage | ⟨held, converged⟩
    · have both := aligned.stage
      rw [stage] at both
      exact covered both.1 both.2 _
    · exact covered converged (aligned.locked _ held).2 _

end Steps

end Rayfish.Publisher
