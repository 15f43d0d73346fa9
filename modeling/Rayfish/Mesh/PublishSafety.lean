import Rayfish.Mesh.Publisher

/-!
# What a coordinator saves

Whenever a recovery pointer is saved its blob is in the store, and it is marked published
only if a record has named it. Both hold in every state (`Sound.run`): each write of the
pointer is made by a holder of the lock that has put the blob in the store and knows where
the hash came from (`Locked.Fit`).
-/

namespace Rayfish.Publisher

open Lib

variable {Hash : Type}

abbrev PublishHistory (Hash : Type) :=
  List (Entry (Publishing Hash) (PublishAct Hash) (PublishOut Hash))

/-- A record of this hash was at the relay when the coordinator began, or has been received,
or taken by the relay. -/
def Named (s₀ : Publishing Hash) (h : PublishHistory Hash) (hash : Hash) : Prop :=
  (∃ i ∈ s₀.served, i.record.hash = hash) ∨
    ∃ e ∈ h, ∃ record, (e.out = .received record ∨ e.out = .accepted record) ∧ record.hash = hash

variable {hash : Hash} {disk : Disk} {f : NetworkConfig Hash → NetworkConfig Hash}
  {phase : Locked Hash}

theorem Named.snoc (named : Named s₀ h hash)
    (e : Entry (Publishing Hash) (PublishAct Hash) (PublishOut Hash)) :
    Named s₀ (h ++ [e]) hash :=
  named.imp_right fun ⟨e', member, origin⟩ => ⟨e', List.mem_append_left _ member, origin⟩

/-! ## What is saved -/

section

variable (disk f) (n : Node Hash)

/-- A config transaction leaves the config alone or has written it. -/
theorem updateNetwork_cases :
    (n.updateNetwork disk f).2 = n ∧ (n.updateNetwork disk f).1 ≠ .saved ∨
      ∃ cfg, n.config = some cfg ∧
        (n.updateNetwork disk f).2 = { n with config := some (f cfg) } := by
  unfold Node.updateNetwork
  split
  · exact .inl ⟨rfl, nofun⟩
  · next cfg held _ => exact .inr ⟨cfg, held, rfl⟩
  · next cfg held _ => exact .inr ⟨cfg, held, rfl⟩
  · exact .inl ⟨rfl, nofun⟩

theorem updateNetwork_frame :
    (n.updateNetwork disk f).2.blobs = n.blobs ∧ (n.updateNetwork disk f).2.net = n.net := by
  rcases updateNetwork_cases disk f n with ⟨same, -⟩ | ⟨cfg, -, written⟩
  · simp [same]
  · simp [written]

end

/-- The saved pointer has its blob, and it and the durability marker are published only if
named. -/
structure Saved (named : Hash → Prop) (n : Node Hash) : Prop where
  stored : ∀ hash, savedPointer n = some hash → hash ∈ n.blobs
  flagged : ∀ cfg, n.config = some cfg → cfg.lastGroupHashPublished = true →
    ∀ hash, cfg.lastGroupHash = some hash → named hash
  marked : ∀ pending, n.net.unconfirmedDurableHash = some pending → pending.published = true →
    named pending.hash

variable {net : NetworkState Hash} {published : Bool}

section SavedSteps

variable {named : Hash → Prop} {n : Node Hash}

section

variable (saved : Saved named n)

include saved

theorem Saved.mono (grows : ∀ hash, named hash → named' hash) : Saved named' n :=
  ⟨saved.stored,
    fun cfg held flag hash at_hash => grows hash (saved.flagged cfg held flag hash at_hash),
    fun pending held flag => grows _ (saved.marked pending held flag)⟩

/-- The live state changes, but not its marker. -/
theorem Saved.withNet (same : net.unconfirmedDurableHash = n.net.unconfirmedDurableHash) :
    Saved named { n with net } :=
  ⟨saved.stored, saved.flagged, fun pending held => saved.marked pending (same ▸ held)⟩

theorem Saved.unmarked (none : net.unconfirmedDurableHash = none) : Saved named { n with net } :=
  ⟨saved.stored, saved.flagged, fun pending held => by rw [none] at held; cases held⟩

theorem Saved.withBlob [DecidableEq Hash] (hash : Hash) :
    Saved named { n with blobs := insert hash n.blobs } :=
  ⟨fun hash at_hash => Finset.mem_insert_of_mem (saved.stored hash at_hash), saved.flagged,
    saved.marked⟩

theorem Saved.updateNetwork
    (stored : ∀ cfg, n.config = some cfg → ∀ hash, (f cfg).lastGroupHash = some hash →
      hash ∈ n.blobs)
    (flagged : ∀ cfg, n.config = some cfg → (f cfg).lastGroupHashPublished = true →
      ∀ hash, (f cfg).lastGroupHash = some hash → named hash) :
    Saved named (n.updateNetwork disk f).2 := by
  rcases updateNetwork_cases disk f n with ⟨same, -⟩ | ⟨cfg, held, written⟩
  · rw [same]
    exact saved
  · rw [written]
    refine ⟨stored cfg held, ?_, saved.marked⟩
    rintro _ ⟨⟩ flag hash at_hash
    exact flagged cfg held flag hash at_hash

theorem Saved.movePointer (blob : hash ∈ n.blobs) (moves : ∀ cfg, (f cfg).lastGroupHash = some hash)
    (origin : ∀ cfg, (f cfg).lastGroupHashPublished = true → named hash) :
    Saved named (n.updateNetwork disk f).2 := by
  refine saved.updateNetwork ?_ ?_
  · rintro cfg - other at_other
    cases (moves cfg).symm.trans at_other
    exact blob
  · rintro cfg - flag other at_other
    cases (moves cfg).symm.trans at_other
    exact origin cfg flag

/-- A transaction that leaves the pointer alone. -/
theorem Saved.keepPointer (pointer : ∀ cfg, (f cfg).lastGroupHash = cfg.lastGroupHash)
    (flagged : ∀ cfg, n.config = some cfg → (f cfg).lastGroupHashPublished = true →
      cfg.lastGroupHashPublished = true ∨ ∀ hash, cfg.lastGroupHash = some hash → named hash) :
    Saved named (n.updateNetwork disk f).2 := by
  refine saved.updateNetwork (fun cfg held hash at_hash => ?_) fun cfg held flag hash at_hash => ?_
  · rw [pointer] at at_hash
    exact saved.stored hash (by rw [savedPointer, held]; exact at_hash)
  · rw [pointer] at at_hash
    rcases flagged cfg held flag with old | new
    · exact saved.flagged cfg held old hash at_hash
    · exact new hash at_hash

end

variable [DecidableEq Hash] {marker : Option (PendingSnapshotDurability Hash)}

/-- A marker for this hash that says published. -/
theorem marker_of_any
    (flag : (marker.filter fun pending => pending.hash = hash).any (·.published) = true) :
    ∃ pending, marker = some pending ∧ pending.published = true ∧ pending.hash = hash := by
  obtain ⟨pending, kept, published⟩ := (Option.any_eq_true ..).mp flag
  obtain ⟨held, same⟩ := Option.filter_eq_some_iff.mp kept
  exact ⟨pending, held, published, of_decide_eq_true same⟩

/-- The provenance that a retry takes from the marker. -/
theorem marker_of_getD
    (flag : ((marker.filter fun pending => pending.hash = hash).map (·.published)).getD published =
      true) :
    published = true ∨
      ∃ pending, marker = some pending ∧ pending.published = true ∧ pending.hash = hash := by
  cases kept : marker.filter fun pending => pending.hash = hash with
  | none =>
    rw [kept] at flag
    exact .inl flag
  | some pending =>
    rw [kept] at flag
    exact .inr (marker_of_any (by rw [kept]; exact flag))

variable (saved : Saved named n)

include saved

theorem Saved.markPending (origin : published = true → named hash) :
    Saved named { n with net := n.net.markGroupHashDurabilityPending hash published } := by
  unfold NetworkState.markGroupHashDurabilityPending
  split
  · refine ⟨saved.stored, saved.flagged, ?_⟩
    rintro _ ⟨⟩ flag
    rcases (Bool.or_eq_true _ _).mp flag with held | now
    · -- the marker already says so
      obtain ⟨pending, marker, told, rfl⟩ := marker_of_any held
      exact saved.marked pending marker told
    · exact origin now
  · exact saved

theorem Saved.confirmDurable (hash : Hash) :
    Saved named { n with net := n.net.confirmCurrentGroupHashDurable hash } := by
  unfold NetworkState.confirmCurrentGroupHashDurable
  split
  · exact saved.unmarked rfl
  · exact saved

theorem Saved.confirmPublication (is : named hash) (disk : Disk) (timestamp : Nat) :
    Saved named (n.confirmPublication disk hash timestamp).2 := by
  have raised : Saved named { n with net := n.net.raiseRecordFloor timestamp } := saved.withNet rfl
  refine raised.keepPointer (fun _ => rfl) fun cfg held flag => ?_
  rcases (Bool.or_eq_true _ _).mp flag with old | now
  · exact .inl old
  · refine .inr fun other at_other => ?_
    cases at_other.symm.trans (of_decide_eq_true now)
    exact is

theorem Saved.effective (origin : published = true → named hash)
    (flag : ((n.net.unconfirmedDurableHash.filter fun pending => pending.hash = hash).map
      (·.published)).getD published = true) : named hash := by
  rcases marker_of_getD flag with own | ⟨pending, marker, told, rfl⟩
  · exact origin own
  · exact saved.marked pending marker told

end SavedSteps

/-! ## Under the lock -/

section LockedSteps

variable {named : Hash → Prop} {n : Node Hash}

/-- What the holder of the lock has made sure of. -/
def Locked.Fit (named : Hash → Prop) (n : Node Hash) : Locked Hash → Prop
  | .checkSnapshot _ hash => hash ∈ n.blobs
  | .persist _ hash published | .readBlob _ hash published _ | .storeBlob _ hash published
  | .settle _ hash published _ => published = true → named hash
  | .writePointer _ hash published => hash ∈ n.blobs ∧ (published = true → named hash)
  | _ => True

theorem Locked.Fit.mono (fit : phase.Fit named n) (grows : ∀ hash, named hash → named' hash)
    (blobs : n.blobs ⊆ n'.blobs) :
    phase.Fit named' n' := by
  cases phase with
  | checkSnapshot => exact blobs fit
  | persist | readBlob | storeBlob | settle => exact fun flag => grows _ (fit flag)
  | writePointer => exact ⟨blobs fit.1, fun flag => grows _ (fit.2 flag)⟩
  | _ => trivial

/-- Where a step leads is fit again. -/
def Next.Fit (named : Hash → Prop) (n : Node Hash) : Next Hash → Prop
  | .go phase => phase.Fit named n
  | _ => True

theorem Holder.after_fit (holder : Holder) (ok : Bool) : (holder.after ok).Fit named n := by
  cases holder with
  | admission attempt => cases attempt <;> cases ok <;> trivial
  | publish => cases ok <;> trivial
  | edit | apply task | serve => trivial

variable [DecidableEq Hash] (codec : GroupCodec Hash)

theorem Locked.step_saved (turn : Turn) (saved : Saved named n) (fit : phase.Fit named n) :
    Saved named (phase.step codec turn n).2 ∧
      (phase.step codec turn n).1.Fit named (phase.step codec turn n).2 := by
  cases phase with
  | encode holder =>
    rw [Locked.step]
    split
    · exact ⟨saved, holder.after_fit false⟩
    · exact ⟨saved.withNet rfl, trivial⟩
  | storeSnapshot holder hash =>
    rw [Locked.step]
    split
    · exact ⟨saved.withBlob hash, Finset.mem_insert_self _ _⟩
    · exact ⟨saved.markPending (absurd · Bool.false_ne_true), holder.after_fit false⟩
  | checkSnapshot holder hash =>
    rw [Locked.step]
    split
    · exact ⟨saved, fit, (absurd · Bool.false_ne_true)⟩
    · exact ⟨saved, trivial⟩
  | persist holder hash published =>
    rw [Locked.step]
    split
    · exact ⟨saved, holder.after_fit false⟩
    · exact ⟨saved, fun flag => saved.effective fit flag⟩
  | readBlob holder hash published held =>
    rw [Locked.step]
    split
    · next stored => exact ⟨saved, stored.2, fit⟩
    · split
      · exact ⟨saved, fit⟩
      · exact ⟨saved.markPending fit, holder.after_fit false⟩
  | storeBlob holder hash published =>
    rw [Locked.step]
    split
    · exact ⟨saved.withBlob hash, Finset.mem_insert_self _ _, fit⟩
    · exact ⟨saved.markPending fit, holder.after_fit false⟩
  | writePointer holder hash published =>
    exact ⟨saved.movePointer fit.1 (fun _ => rfl) fun _ => fit.2, fit.2⟩
  | settle holder hash published ok =>
    refine ⟨?_, holder.after_fit ok⟩
    cases ok with
    | true => exact saved.confirmDurable hash
    | false => exact saved.markPending fit
  | choose | target =>
    rw [Locked.step]
    split
    · refine ⟨saved, ?_⟩
      split <;> trivial
    · exact ⟨saved, trivial⟩
  | inspect hash | inspectSaved hash | inspectBlob hash | sign hash =>
    refine ⟨saved, ?_⟩
    rw [Locked.step]
    split <;> trivial
  | undo =>
    rw [Locked.step]
    split
    · exact ⟨saved.withNet rfl, trivial⟩
    · exact ⟨saved, trivial⟩
  | retain =>
    refine ⟨⟨saved.stored, saved.flagged, ?_⟩, trivial⟩
    rintro _ ⟨⟩ flag
    cases flag

theorem Locked.step_blobs (turn : Turn) (n : Node Hash)
    (phase : Locked Hash) : n.blobs ⊆ (phase.step codec turn n).2.blobs := by
  cases phase with
  | writePointer holder hash published => exact (updateNetwork_frame _ _ n).1.ge
  | _ =>
    -- the others insert a blob or leave the store alone
    unfold Locked.step
    dsimp only
    repeat' split
    all_goals first | exact Finset.subset_insert _ _ | exact fun _ => id

end LockedSteps

/-- The provenance with which a served pointer is written again. -/
theorem keptHash_origin [DecidableEq Hash] (saved : Saved named n)
    (kept : keptHash disk hash false n = .write published) (flag : published = true) :
    named hash := by
  unfold keptHash at kept
  split at kept
  · cases kept
  dsimp only at kept
  split at kept
  · cases kept
  · cases kept
    have own : false = true → named hash := nofun
    exact saved.effective own flag

/-! ## Apply runs -/

section ApplyRuns

variable {disk : Disk} {named : Hash → Prop} {n : Node Hash} {t : ApplyTask Hash}

theorem resume_record {progress : ApplyProgress Hash} {t' : ApplyTask Hash}
    (resumes : progress.resume t = some t') : t'.record = t.record := by
  cases progress with
  | next phase =>
    cases resumes
    rfl
  | done outcome leaves => cases resumes

/-- What the commit protocol looks at is the same in both nodes, but for blobs that were
added. -/
structure Beside (n n' : Node Hash) : Prop where
  snapshot : n'.net.snapshot = n.net.snapshot
  converged : n'.net.convergedHash = n.net.convergedHash
  pointer : savedPointer n' = savedPointer n
  blobs : n.blobs ⊆ n'.blobs

theorem Beside.refl (n : Node Hash) : Beside n n := ⟨rfl, rfl, rfl, fun _ => id⟩

theorem Beside.updateNetwork (pointer : ∀ cfg, (f cfg).lastGroupHash = cfg.lastGroupHash) :
    Beside n (n.updateNetwork disk f).2 := by
  rcases updateNetwork_cases disk f n with ⟨same, -⟩ | ⟨cfg, held, written⟩
  · rw [same]
    exact .refl n
  · rw [written]
    refine ⟨rfl, rfl, ?_, fun _ => id⟩
    rw [savedPointer, savedPointer, held]
    exact pointer cfg

variable [DecidableEq Hash]

theorem observe_beside (hash : Hash) (ts : Nat) :
    Beside n { n with net := (n.net.observeCurrentRecord hash ts).2 } ∧
      (n.net.observeCurrentRecord hash ts).2.unconfirmedDurableHash =
        n.net.unconfirmedDurableHash := by
  unfold NetworkState.observeCurrentRecord
  split
  · exact ⟨.refl n, rfl⟩
  · split
    · exact ⟨⟨rfl, rfl, rfl, fun _ => id⟩, rfl⟩
    · exact ⟨.refl n, rfl⟩

variable (codec : GroupCodec Hash) (me : EndpointId) (disk : Disk)

/-- A section of an apply run that does not take the lock. -/
theorem advance_unlocked (served : Bool) (n : Node Hash) (free : takesLock t.phase = false) :
    Beside n (t.advance codec me disk served n).2 ∧
      ∀ named, Saved named n → Saved named (t.advance codec me disk served n).2 := by
  unfold ApplyTask.advance
  split
  · next phase =>
    rw [phase] at free
    cases free
  · exact ⟨.refl n, fun _ => id⟩
  · exact ⟨.refl n, fun _ => id⟩
  · obtain ⟨beside, marker⟩ := observe_beside (n := n) t.record.hash t.record.timestamp
    exact ⟨beside, fun _ saved => saved.withNet marker⟩
  · dsimp only
    split
    · exact ⟨.updateNetwork fun _ => rfl,
        fun _ saved => saved.keepPointer (fun _ => rfl) fun _ _ flag => .inl flag⟩
    · exact ⟨.refl n, fun _ => id⟩
  · next phase =>
    rw [phase] at free
    cases free
  · exact ⟨.refl n, fun _ => id⟩
  · split
    · split
      · exact ⟨⟨rfl, rfl, rfl, Finset.subset_insert _ _⟩, fun _ saved => saved.withBlob _⟩
      · exact ⟨.refl n, fun _ => id⟩
    · exact ⟨.refl n, fun _ => id⟩
  · exact ⟨.refl n, fun _ => id⟩
  · next phase =>
    rw [phase] at free
    cases free

/-- A section of an apply run that takes the lock. -/
theorem takeLock_saved (task : Nat) (saved : Saved named n) (is : named t.record.hash) :
    Saved named (takeLock codec me disk task t n).2 ∧
      ∀ phase, (takeLock codec me disk task t n).1 = .inr phase →
        phase.Fit named (takeLock codec me disk task t n).2 := by
  unfold takeLock
  split
  · split
    · exact ⟨saved, nofun⟩
    · next pending marker =>
      refine ⟨saved, ?_⟩
      rintro _ ⟨⟩
      exact fun flag => saved.marked pending marker flag
  · split
    · refine ⟨saved, ?_⟩
      rintro _ ⟨⟩
      exact fun _ => is
    · exact ⟨saved, nofun⟩
    · exact ⟨saved, nofun⟩
  · split
    · exact ⟨saved, nofun⟩
    · refine ⟨saved.withNet rfl, ?_⟩
      rintro _ ⟨⟩
      exact fun _ => is
  · exact ⟨saved, nofun⟩

theorem takeLock_blobs (task : Nat)
    (t : ApplyTask Hash) (n : Node Hash) : (takeLock codec me disk task t n).2.blobs = n.blobs := by
  unfold takeLock
  repeat' split
  all_goals rfl

end ApplyRuns

/-! ## The daemon -/

section Runs

variable {codec : GroupCodec Hash} {me : EndpointId} {key : EndpointId} {group : GroupBlob}
  {named named' : Hash → Prop} {s s' : Publishing Hash} {act : PublishAct Hash}
  {out : PublishOut Hash}

/-- What a restart has made sure of. -/
def Stage.Fit (codec : GroupCodec Hash) (named : Hash → Prop) (n : Node Hash) :
    Stage Hash → Prop
  | .loaded restored _ _ => restored.published = true → named restored.hash
  | .sealed restored group _ =>
    (restored.published = true → named restored.hash) ∧ codec.groupBlobHash group ∈ n.blobs
  | _ => True

variable {stage : Stage Hash} {node : Node Hash}

theorem Stage.Fit.mono (fit : stage.Fit codec named n) (grows : ∀ hash, named hash → named' hash)
    (blobs : n.blobs ⊆ n'.blobs) :
    stage.Fit codec named' n' := by
  cases stage with
  | loaded => exact fun flag => grows _ (fit flag)
  | «sealed» => exact ⟨fun flag => grows _ (fit.1 flag), blobs fit.2⟩
  | _ => trivial

structure Sound (codec : GroupCodec Hash) (named : Hash → Prop) (s : Publishing Hash) : Prop where
  saved : Saved named s.node
  locked : ∀ phase, s.locked = some phase → phase.Fit named s.node
  stage : s.stage.Fit codec named s.node
  applies : ∀ task t, s.applies task = some t → named t.record.hash
  taken : ∀ issued ∈ s.taken, named issued.record.hash

section

variable (sound : Sound codec named s)

include sound

theorem Sound.mono (grows : ∀ hash, named hash → named' hash) : Sound codec named' s where
  saved := sound.saved.mono grows
  locked phase held := (sound.locked phase held).mono grows fun _ => id
  stage := sound.stage.mono grows fun _ => id
  applies task t runs := grows _ (sound.applies task t runs)
  taken issued member := grows _ (sound.taken issued member)

theorem Sound.lock (fit : phase.Fit named s.node) :
    Sound codec named { s with locked := some phase } :=
  { sound with locked := by rintro _ ⟨⟩; exact fit }

theorem Sound.unlock : Sound codec named { s with locked := none } :=
  { sound with locked := nofun }

theorem Sound.reach (fit : stage.Fit codec named s.node) : Sound codec named { s with stage } :=
  { sound with stage := fit }

/-- Only the tasks change. -/
theorem Sound.resume (task : Nat) (is : ∀ t', t = some t' → named t'.record.hash) :
    Sound codec named { s with applies := Function.update s.applies task t } := by
  refine { sound with applies := fun other t' runs => ?_ }
  exact (update_cases runs).elim (is t') (sound.applies other t')

/-- The node changes under a lock that nobody holds, or next to its holder. -/
theorem Sound.withNode (saved : Saved named node) (blobs : s.node.blobs ⊆ node.blobs) :
    Sound codec named { s with node } :=
  { sound with
    saved := saved
    locked := fun phase held => (sound.locked phase held).mono (fun _ => id) blobs
    stage := sound.stage.mono (fun _ => id) blobs }

/-- A restart installs a state of its own. -/
theorem Sound.rebuilt (saved : Saved named node) (blobs : s.node.blobs ⊆ node.blobs)
    (unmarked : net.unconfirmedDurableHash = none) (fit : stage.Fit codec named { node with net }) :
    Sound codec named { s with node := { node with net }, stage } :=
  Sound.reach (s := { s with node := { node with net } })
    (sound.withNode (saved.unmarked unmarked) blobs) fit

theorem Sound.signs (step : s.signs hash timestamp = some (out, s')) : Sound codec named s' := by
  cases (Option.ite_none_right_eq_some.1 step).2
  exact { sound with locked := nofun }

end

/-- A restored hash that is not our own pending one was published, or saved as published. -/
theorem selectRestoreTarget_origin {published cached : Option Hash} {cachedIsPublished : Bool}
    {source : RestoreHashSource}
    (target : selectRestoreTarget published cached cachedIsPublished = some (hash, source))
    (other : source ≠ .localPending) :
    published = some hash ∨ cached = some hash ∧ cachedIsPublished = true := by
  unfold selectRestoreTarget at target
  split at target
  · cases target
    exact absurd rfl other
  next settled =>
  split at target
  · cases target
    exact .inl rfl
  obtain ⟨_, held, same⟩ := Option.map_eq_some_iff.mp target
  cases same
  refine .inr ⟨held, ?_⟩
  rw [held] at settled
  simpa using settled

theorem restored_origin {served : Hash → Bool} {answer : RelayAnswer Hash}
    {saved : NetworkConfig Hash} {restored : RestoredGroupBlob Hash}
    (flagged : saved.lastGroupHashPublished = true → ∀ hash, saved.lastGroupHash = some hash →
      named hash)
    (answered : ∀ record compatible, answer = .record record compatible → named record.hash)
    (restores : restoreRosterFromBlob codec served answer saved.lastGroupHash
      saved.lastGroupHashPublished = some restored)
    (flag : restored.published = true) : named restored.hash := by
  obtain ⟨⟨hash, source⟩, target, restores⟩ := Option.bind_eq_some_iff.mp restores
  obtain ⟨blob, -, rfl⟩ := Option.map_eq_some_iff.mp restores
  replace flag := of_decide_eq_true flag
  cases answer with
  | destroyed | malformed => cases target
  | unavailable =>
    rcases selectRestoreTarget_origin target flag with absent | ⟨held, was⟩
    · cases absent
    · exact flagged was hash held
  | record record compatible =>
    rcases selectRestoreTarget_origin target flag with same | ⟨held, was⟩
    · cases same
      exact answered record compatible rfl
    · exact flagged was hash held

/-- A restart saves the pointer to a roster it has stored. -/
theorem Sound.repointed [DecidableEq Hash] (sound : Sound codec named s)
    (stage : s.stage = .sealed restored group floor) (disk : Disk) :
    Saved named
      (s.node.updateNetwork disk (repoint restored (codec.groupBlobHash group))).2 := by
  have fit := sound.stage
  rw [stage] at fit
  obtain ⟨published, stored⟩ := fit
  refine sound.saved.movePointer stored (fun _ => rfl) fun _ flag => ?_
  obtain ⟨was, same⟩ := (Bool.and_eq_true _ _).mp flag
  exact of_decide_eq_true same ▸ published was

theorem Begins.sound (begins : Begins codec s) : Sound codec (Named s []) s := by
  cases begins with
  | founded key group =>
    refine ⟨⟨?_, ?_, nofun⟩, nofun, trivial, nofun, nofun⟩
    · rintro _ ⟨⟩
      exact Finset.mem_singleton_self _
    · rintro _ ⟨⟩ ⟨⟩
  | granted key group record published named =>
    refine ⟨⟨?_, ?_, nofun⟩, nofun, trivial, nofun, nofun⟩
    · rintro _ ⟨⟩
      exact Finset.mem_singleton_self _
    · rintro _ ⟨⟩ flag _ ⟨⟩
      exact .inl ⟨_, List.mem_singleton_self _, named flag⟩

variable [DecidableEq Hash]

theorem Sound.lockStep (sound : Sound codec named s) (held : s.locked = some phase)
    (taken : phase.step codec turn s.node = (next, node)) :
    Sound codec named { s with node } ∧ next.Fit named node := by
  obtain ⟨saved, fit⟩ := Locked.step_saved codec turn sound.saved (sound.locked phase held)
  have grows := Locked.step_blobs codec turn s.node phase
  rw [taken] at saved fit grows
  exact ⟨sound.withNode saved grows, fit⟩

/-- The pointer that the publisher retries carries no provenance of its own. -/
theorem Sound.moves (sound : Sound codec named s)
    (origin : ∀ record, out = .received record ∨ out = .accepted record → named record.hash)
    (moves : s.Moves codec me act out s') : Sound codec named s' := by
  have resumes : ∀ {task t}, s.applies task = some t → ∀ (progress : ApplyProgress Hash) t',
      progress.resume t = some t' → named t'.record.hash :=
    fun runs progress t' resumed => resume_record resumed ▸ sound.applies _ _ runs
  cases moves with
  | write group refreshes running =>
    refine sound.withNode (sound.saved.withNet ?_) fun _ => id
    cases refreshes <;> rfl
  | commit running free => exact sound.lock trivial
  | seat group running free =>
    have seated : Sound codec named { s with
        node := { s.node with net := { s.node.net with group := group } } } :=
      sound.withNode (sound.saved.withNet rfl) fun _ => id
    exact seated.lock trivial
  | publish disk running free =>
    refine sound.lock ?_
    split
    · exact nofun
    · trivial
  | serve disk running free converged =>
    split
    · next published kept => exact sound.lock fun flag => keptHash_origin sound.saved kept flag
    · exact sound.unlock
    · exact sound.unlock
  | goes turn running held taken =>
    obtain ⟨moved, fit⟩ := sound.lockStep held taken
    exact moved.lock fit
  | ends turn running held taken =>
    obtain ⟨moved, -⟩ := sound.lockStep held taken
    unfold Publishing.release
    split
    · next task _ =>
      refine Sound.unlock (moved.resume task fun t' resumed => ?_)
      obtain ⟨t, runs, resumed⟩ := Option.bind_eq_some_iff.mp resumed
      exact resumes runs _ t' resumed
    · exact moved.unlock
  | signs turn running held taken signed => exact (sound.lockStep held taken).1.signs signed
  | receive task record source deviceCert running =>
    refine sound.resume task ?_
    rintro _ ⟨⟩
    exact origin record (.inl rfl)
  | answers task disk served running runs free taken =>
    obtain ⟨saved, -⟩ := takeLock_saved codec me disk task sound.saved (sound.applies _ _ runs)
    have moved := sound.withNode saved (takeLock_blobs codec me disk task _ s.node).ge
    rw [taken] at moved
    exact moved.resume task (resumes runs _)
  | locks task disk served running runs free taken =>
    obtain ⟨saved, fit⟩ := takeLock_saved codec me disk task sound.saved (sound.applies _ _ runs)
    have moved := sound.withNode saved (takeLock_blobs codec me disk task _ s.node).ge
    rw [taken] at moved fit
    exact moved.lock (fit _ rfl)
  | advances task disk served running runs free =>
    obtain ⟨beside, saves⟩ := advance_unlocked codec me disk served s.node free
    exact (sound.withNode (saves named sound.saved) beside.blobs).resume task (resumes runs _)
  | @confirm issued packet disk running free at_packet =>
    have is := sound.taken issued (List.mem_of_getElem? at_packet)
    have blobs : (s.node.confirmPublication disk issued.record.hash
        issued.record.timestamp).2.blobs = s.node.blobs := (updateNetwork_frame _ _ _).1
    have confirmed := sound.withNode (sound.saved.confirmPublication is disk _) blobs.ge
    exact { confirmed with
      taken := fun other member => sound.taken other (List.mem_of_mem_eraseIdx member) }
  | @deliver issued awaited packet answered at_packet =>
    refine { sound with taken := fun other member => ?_ }
    cases answered with
    | false => exact sound.taken other member
    | true =>
      cases awaited with
      | false => exact sound.taken other member
      | true =>
        rcases mem_snoc_cases member with before | rfl
        · exact sound.taken other before
        · exact origin other.record (.inr rfl)
  | crash =>
    exact { sound with locked := nofun, stage := trivial, applies := nofun, taken := nofun }
  | @load saved restored restart stage held restores =>
    have fetched := sound.withNode (sound.saved.withBlob restored.hash) (Finset.subset_insert _ _)
    refine { fetched with stage := restored_origin ?_ ?_ restores }
    · exact sound.saved.flagged saved held
    · intro record compatible answer
      exact origin record (.inl (by rw [heard, answer]))
  | unloaded restart stage => exact sound
  | @store restored group floor disk stage =>
    have fit := sound.stage
    rw [stage] at fit
    have stored := sound.withNode (sound.saved.withBlob (codec.groupBlobHash group))
      (Finset.subset_insert _ _)
    exact { stored with stage := ⟨fit, Finset.mem_insert_self _ _⟩ }
  | unstored disk stage => exact sound.reach trivial
  | save disk stage saved =>
    exact sound.rebuilt (sound.repointed stage disk) (updateNetwork_frame _ _ _).1.ge rfl trivial
  | unsaved disk stage =>
    exact Sound.reach (sound.withNode (sound.repointed stage disk)
      (updateNetwork_frame _ _ _).1.ge) trivial
  | start timestamp stage signed =>
    have up : Sound codec named { s with stage := .running } := sound.reach trivial
    exact up.signs signed

theorem Sound.step (sound : Sound codec named s)
    (grows : ∀ hash, named hash → named' hash)
    (origin : ∀ record, out = .received record ∨ out = .accepted record → named' record.hash)
    (step : publishStep codec me s act = some (out, s')) : Sound codec named' s' := by
  obtain ⟨⟨_, s₁⟩, went, same⟩ := Option.map_eq_some_iff.mp step
  cases same
  exact { (sound.mono grows).moves origin (Publishing.step_moves went) with }

theorem Sound.run (begins : Begins codec s₀)
    (run : Run (fun s act out s' => publishStep codec me s act = some (out, s')) s₀ h s) :
    Sound codec (Named s₀ h) s := by
  induction run with
  | nil => exact begins.sound
  | @snoc h s s' act out run step ih =>
    refine ih.step (fun hash is => is.snoc _) (fun record is => ?_) step
    exact .inr ⟨_, mem_snoc, record, is, rfl⟩

end Runs

end Rayfish.Publisher
