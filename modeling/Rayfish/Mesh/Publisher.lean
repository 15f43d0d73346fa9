import Rayfish.Mesh.Restore

/-!
# A coordinator, its publisher and a relay

The publisher of `publish.rs` with everything that moves what it publishes, cut finer than
in `Mesh.Machine`: a holder of `snapshot_commit` stops wherever the source awaits or leaves
the state's lock. Commands that do not hold the lock (`ray accept`, an admin grant) write
the group in between. Records are on their way to a relay that keeps the latest one, and the
daemon can stop anywhere and restore the network from what it saved.
-/

namespace Rayfish.Publisher

open Lib

variable {Hash : Type}

/-! ## State -/

/-- How far `commit_admission` has come: the row is in, taken back, or in for good. -/
inductive Attempt where
  | seated
  | undone
  | retained

/-- Who holds `snapshot_commit`. -/
inductive Holder where
  /-- `update_snapshot_and_publish`. -/
  | edit
  | admission (attempt : Attempt)
  | publish
  /-- An apply run. -/
  | apply (task : Nat)
  /-- `current_signed_record`. -/
  | serve

/-- What the holder of `snapshot_commit` does next. -/
inductive Locked (Hash : Type) where
  /-- The loop of `commit_current_snapshot`. -/
  | encode (holder : Holder)
  | storeSnapshot (holder : Holder) (hash : Hash)
  | checkSnapshot (holder : Holder) (hash : Hash)
  /-- `persist_group_hash_locked`. -/
  | persist (holder : Holder) (hash : Hash) (published : Bool)
  | readBlob (holder : Holder) (hash : Hash) (published : Bool) (held : Bool)
  | storeBlob (holder : Holder) (hash : Hash) (published : Bool)
  /-- `write_group_hash_pointer`. -/
  | writePointer (holder : Holder) (hash : Hash) (published : Bool)
  | settle (holder : Holder) (hash : Hash) (published saved : Bool)
  /-- The publisher picks the saved hash, and `snapshot_is_publishable` looks at it. -/
  | choose
  | inspect (hash : Hash)
  | inspectSaved (hash : Hash)
  | inspectBlob (hash : Hash)
  /-- `sign_current_network_record`. -/
  | sign (hash : Hash)
  /-- An admission picks the hash it signs. -/
  | target
  /-- A failed admission takes its row back, or keeps it. -/
  | undo
  | retain

/-- The apply run that holds the lock. -/
def Locked.task : Locked Hash → Option Nat
  | .persist (.apply task) _ _ | .readBlob (.apply task) _ _ _ | .storeBlob (.apply task) _ _ |
    .writePointer (.apply task) _ _ | .settle (.apply task) _ _ _ => some task
  | _ => none

/-- A signed record. The source does not number generations: `generation` counts the moves
of the saved pointer before the record was signed. -/
structure Issued (Hash : Type) where
  record : SignedGroupRecord Hash
  generation : Nat
  deriving DecidableEq

/-- Where the daemon is between a start and a running network. -/
inductive Stage (Hash : Type) where
  | down
  | loaded (restored : RestoredGroupBlob Hash) (group : GroupBlob) (floor : Option Nat)
  | sealed (restored : RestoredGroupBlob Hash) (group : GroupBlob) (floor : Option Nat)
  /-- Saved, and about to sign the record of this hash. -/
  | starting (hash : Hash)
  | running

structure Publishing (Hash : Type) where
  node : Node Hash
  stage : Stage Hash
  locked : Option (Locked Hash)
  applies : Nat → Option (ApplyTask Hash)
  /-- Records on their way to the relay, and whether a task waits for the answer. -/
  inFlight : List (Issued Hash × Bool)
  /-- Records the relay took, not confirmed here yet. -/
  taken : List (Issued Hash)
  relay : Option (Issued Hash)
  /-- Every record the relay has been sent. -/
  served : List (Issued Hash)
  /-- The time of the last signature. -/
  clock : Nat
  moves : Nat

/-- The saved recovery pointer. -/
def savedPointer (n : Node Hash) : Option Hash := n.config.bind (·.lastGroupHash)

/-! ## Under the lock -/

/-- What a step of the holder depends on. -/
structure Turn where
  disk : Disk
  /-- The publisher finds the record due. -/
  due : Bool
  /-- The group that an admission leaves when it takes its row back or keeps it. -/
  group : GroupBlob
  /-- The row could be taken back. -/
  restored : Bool
  timestamp : Nat

inductive Next (Hash : Type) where
  | go (phase : Locked Hash)
  | done (ok : Bool)
  | sign (hash : Hash)

/-- On from a commit or a pointer write that succeeded or not. -/
def Holder.after : Holder → Bool → Next Hash
  | .publish, true => .go .choose
  | .admission .seated, true | .admission .retained, true => .go .target
  | .admission .seated, false => .go .undo
  | .admission .undone, false => .go .retain
  | .publish, false => .done false
  | .admission .undone, true => .done true
  | .admission .retained, false => .done false
  | .edit, ok | .apply _, ok | .serve, ok => .done ok

variable [DecidableEq Hash]

def Locked.step (codec : GroupCodec Hash) (turn : Turn) (n : Node Hash) :
    Locked Hash → Next Hash × Node Hash
  | .encode holder =>
    if n.net.destroyed then (holder.after false, n)
    else
      let net := n.net.refreshSnapshot codec
      (.go (.storeSnapshot holder (codec.groupBlobHash n.net.group)), { n with net := net })
  | .storeSnapshot holder hash =>
    if turn.disk.blobWrites then
      (.go (.checkSnapshot holder hash), { n with blobs := insert hash n.blobs })
    else
      (holder.after false, { n with net := n.net.markGroupHashDurabilityPending hash false })
  | .checkSnapshot holder hash =>
    -- a command may have encoded the group anew meanwhile
    if n.net.snapshot = some hash then (.go (.writePointer holder hash false), n)
    else (.go (.encode holder), n)
  | .persist holder hash published =>
    if n.net.destroyed ∨ n.net.convergedHash ≠ some hash then (holder.after false, n)
    else
      let published := ((n.net.unconfirmedDurableHash.filter fun pending =>
        pending.hash = hash).map (·.published)).getD published
      (.go (.readBlob holder hash published (n.net.snapshot = some hash)), n)
  | .readBlob holder hash published held =>
    if turn.disk.blobReads ∧ hash ∈ n.blobs then (.go (.writePointer holder hash published), n)
    else if held then (.go (.storeBlob holder hash published), n)
    else
      (holder.after false, { n with net := n.net.markGroupHashDurabilityPending hash published })
  | .storeBlob holder hash published =>
    if turn.disk.blobWrites then
      (.go (.writePointer holder hash published), { n with blobs := insert hash n.blobs })
    else
      (holder.after false, { n with net := n.net.markGroupHashDurabilityPending hash published })
  | .writePointer holder hash published =>
    let (outcome, n) :=
      n.updateNetwork turn.disk (·.setPointer hash published n.net.lastRecordTimestamp)
    (.go (.settle holder hash published (outcome = .saved)), n)
  | .settle holder hash published saved =>
    (holder.after saved, { n with
      net := if saved then n.net.confirmCurrentGroupHashDurable hash
        else n.net.markGroupHashDurabilityPending hash published })
  | .choose =>
    match (n.loadNetwork turn.disk).bind (·.lastGroupHash) with
    | some hash => (if turn.due then .go (.inspect hash) else .done true, n)
    | none => (.done true, n)
  | .inspect hash =>
    (if !n.net.destroyed && n.net.convergedHash = some hash && n.net.unconfirmedDurableHash.isNone
      then .go (.inspectSaved hash) else .done false, n)
  | .inspectSaved hash =>
    (if (n.loadNetwork turn.disk).any fun cfg => cfg.lastGroupHash = some hash then
      .go (.inspectBlob hash) else .done false, n)
  | .inspectBlob hash =>
    (if turn.disk.blobReads ∧ hash ∈ n.blobs then .go (.sign hash) else .done false, n)
  | .sign hash => (if n.net.needsReconverge hash then .done false else .sign hash, n)
  | .target =>
    match n.net.convergedHash with
    | some hash => (if n.net.hasKey then .go (.sign hash) else .done true, n)
    | none => (.done true, n)
  | .undo =>
    let net := NetworkState.refreshSnapshot codec { n.net with group := turn.group }
    (.go (.encode (.admission .undone)), if turn.restored then { n with net := net } else n)
  | .retain =>
    let net := NetworkState.refreshSnapshot codec { n.net with group := turn.group }
    let pending := net.convergedHash.map fun hash => ⟨hash, false⟩
    (.go (.encode (.admission .retained)), { n with
      net := { net with unconfirmedDurableHash := pending } })

/-! ## Sections that run alone -/

/-- Up to `fuel` steps of the holder with nothing in between. -/
def Locked.alone (codec : GroupCodec Hash) (turn : Turn) :
    Nat → Locked Hash → Node Hash → Next Hash × Node Hash
  | 0, phase, n => (.go phase, n)
  | fuel + 1, phase, n =>
    match phase.step codec turn n with
    | (.go next, n) => next.alone codec turn fuel n
    | ended => ended

section Alone

variable (codec : GroupCodec Hash) (turn : Turn) (n : Node Hash) {holder : Holder}

theorem writePointer_alone (fuel : Nat) (hash : Hash) (published : Bool)
    (ends : ∀ ok, holder.after ok = (.done ok : Next Hash)) :
    (Locked.writePointer holder hash published).alone codec turn (fuel + 2) n =
      (.done (n.writeGroupHashPointer turn.disk hash published).1,
        (n.writeGroupHashPointer turn.disk hash published).2) := by
  simp only [Locked.alone, Locked.step, Node.writeGroupHashPointer, ends]
  cases (n.updateNetwork turn.disk (·.setPointer hash published n.net.lastRecordTimestamp)).1
  · rfl
  · rfl
  · rfl

variable {codec turn n}

theorem alone_go {phase next : Locked Hash} {n' : Node Hash}
    (step : phase.step codec turn n = (.go next, n')) (fuel : Nat) :
    phase.alone codec turn (fuel + 1) n = next.alone codec turn fuel n' := by
  rw [Locked.alone, step]

theorem alone_done {phase : Locked Hash} {n' : Node Hash} {ok : Bool}
    (step : phase.step codec turn n = (.done ok, n')) (fuel : Nat) :
    phase.alone codec turn (fuel + 1) n = (.done ok, n') := by
  rw [Locked.alone, step]

variable (codec turn n)

/-- Without others in between, the holder does what `persistGroupHashLocked` says. -/
theorem persist_alone (hash : Hash) (published : Bool)
    (ends : ∀ ok, holder.after ok = (.done ok : Next Hash)) :
    (Locked.persist holder hash published).alone codec turn 5 n =
      (.done (n.persistGroupHashLocked turn.disk hash published).1,
        (n.persistGroupHashLocked turn.disk hash published).2) := by
  unfold Node.persistGroupHashLocked Node.ensureStored
  by_cases gone : n.net.destroyed = true ∨ n.net.convergedHash ≠ some hash
  · rw [alone_done (by rw [Locked.step, if_pos gone, ends]), if_pos gone]
  rw [alone_go (by rw [Locked.step, if_neg gone]), if_neg gone]
  by_cases stored : turn.disk.blobReads = true ∧ hash ∈ n.blobs
  · rw [alone_go (by rw [Locked.step, if_pos stored]), if_pos stored]
    exact writePointer_alone codec turn n _ _ _ ends
  rw [if_neg stored]
  by_cases held : n.net.snapshot = some hash
  · rw [alone_go (by rw [Locked.step, if_neg stored, if_pos (decide_eq_true held)])]
    by_cases writes : turn.disk.blobWrites = true
    · have both : n.net.snapshot = some hash ∧ turn.disk.blobWrites = true := ⟨held, writes⟩
      rw [alone_go (by rw [Locked.step, if_pos writes]), if_pos both]
      exact writePointer_alone codec turn _ _ _ _ ends
    · have fails : ¬(n.net.snapshot = some hash ∧ turn.disk.blobWrites = true) :=
        fun both => writes both.2
      rw [alone_done (by rw [Locked.step, if_neg writes, ends]), if_neg fails]
      rfl
  · have lost : ¬decide (n.net.snapshot = some hash) = true := fun is => held (of_decide_eq_true is)
    have fails : ¬(n.net.snapshot = some hash ∧ turn.disk.blobWrites = true) :=
      fun both => held both.1
    rw [alone_done (by rw [Locked.step, if_neg stored, if_neg lost, ends]), if_neg fails]
    rfl

/-- And so for a commit: its own snapshot is still the current one. -/
theorem commit_alone :
    (Locked.encode .edit).alone codec turn 5 n =
      (.done (n.commitCurrentSnapshot turn.disk codec).1,
        (n.commitCurrentSnapshot turn.disk codec).2) := by
  have ends (ok : Bool) : Holder.edit.after ok = (.done ok : Next Hash) := rfl
  unfold Node.commitCurrentSnapshot
  by_cases gone : n.net.destroyed = true
  · rw [alone_done (by rw [Locked.step, if_pos gone, ends]), if_pos gone]
  rw [alone_go (by rw [Locked.step, if_neg gone]), if_neg gone]
  by_cases writes : turn.disk.blobWrites = true
  · rw [alone_go (by rw [Locked.step, if_pos writes]), if_pos writes,
      alone_go (by rw [Locked.step]; exact if_pos rfl)]
    exact writePointer_alone codec turn _ _ _ _ ends
  · rw [alone_done (by rw [Locked.step, if_neg writes, ends]), if_neg writes]
    rfl

end Alone

/-! ## Taking the lock -/

/-- What `persist_group_hash_if_needed` finds before it writes. -/
inductive Kept where
  | superseded
  | durable
  | write (published : Bool)

def keptHash (disk : Disk) (hash : Hash) (published : Bool) (n : Node Hash) : Kept :=
  if n.net.convergedHash ≠ some hash then .superseded
  else
    let pending := n.net.unconfirmedDurableHash
    let effective := ((pending.filter fun pending => pending.hash = hash).map
      (·.published)).getD published
    let alreadyDurable := pending.isNone && (n.loadNetwork disk).any fun cfg =>
      cfg.lastGroupHash = some hash && (!effective || cfg.lastGroupHashPublished)
    if alreadyDurable then .durable else .write effective

theorem persistGroupHashIfNeeded_eq (disk : Disk) (hash : Hash) (published : Bool) (n : Node Hash) :
    n.persistGroupHashIfNeeded disk hash published =
      match keptHash disk hash published n with
      | .superseded => (false, n)
      | .durable => (true, n)
      | .write published => n.persistGroupHashLocked disk hash published := by
  unfold Node.persistGroupHashIfNeeded keptHash
  split
  · rfl
  dsimp only
  split <;> rfl

section

variable (codec : GroupCodec Hash)

/-- What the checks of `commit_group_blob` stop an apply run with. -/
def refusedBlob (me : EndpointId) (disk : Disk)
    (deviceCert : Option DeviceCert) (record : SignedGroupRecord Hash) (generation : Hash)
    (data : GroupBlob) (n : Node Hash) : Option (ApplyProgress Hash) :=
  if n.net.unconfirmedDurableHash.isSome then some (.done .superseded false)
  else if (n.pendingAuthoredGroupHash disk).any (· ≠ record.hash) then
    some (.done .superseded false)
  else if n.net.destroyed then some (.done .departed false)
  else if codec.groupBlobHash n.net.group ≠ generation then some (.done .superseded false)
  else if recordIsNewer record.timestamp n.net.lastRecordTimestamp = false then
    some (.done .superseded false)
  else if (data.nullifiedCert deviceCert).isSome then some (.done .departed true)
  else if data.lists me = false then some (.done .departed true)
  else none

theorem commitGroupBlob_eq (me : EndpointId) (disk : Disk) (deviceCert : Option DeviceCert)
    (record : SignedGroupRecord Hash) (generation : Hash) (data : GroupBlob) (n : Node Hash) :
    commitGroupBlob codec me disk deviceCert record generation data n =
      match refusedBlob codec me disk deviceCert record generation data n with
      | some progress => (progress, n)
      | none => (.done .applied false,
          ((adopted codec n record data).persistGroupHashLocked disk record.hash true).2) := by
  unfold commitGroupBlob refusedBlob
  -- check by check
  split
  · rfl
  split
  · rfl
  split
  · rfl
  split
  · rfl
  split
  · rfl
  split
  · rfl
  split
  · rfl
  · rfl

/-- One section of an apply run that takes `snapshot_commit`: what it holds the lock for, or
how it goes on without. -/
def takeLock (me : EndpointId) (disk : Disk) (task : Nat)
    (t : ApplyTask Hash) (n : Node Hash) : (ApplyProgress Hash ⊕ Locked Hash) × Node Hash :=
  match t.phase with
  | .confirmDurability =>
    match n.net.unconfirmedDurableHash with
    | none => (.inl (.next .checkAuthored), n)
    | some pending => (.inr (.persist (.apply task) pending.hash pending.published), n)
  | .savePointer =>
    match keptHash disk t.record.hash true n with
    | .write published => (.inr (.persist (.apply task) t.record.hash published), n)
    | .superseded | .durable => (.inl (.next .review), n)
  | .commit generation data =>
    match refusedBlob codec me disk t.deviceCert t.record generation data n with
    | some progress => (.inl progress, n)
    | none => (.inr (.persist (.apply task) t.record.hash true), adopted codec n t.record data)
  | _ => (.inl (.next t.phase), n)

/-- The phases that take the lock. -/
def takesLock : ApplyPhase Hash → Bool
  | .confirmDurability | .savePointer | .commit _ _ => true
  | _ => false

/-- How an apply run goes on when it gives the lock back. -/
def unlocked (t : ApplyTask Hash) (ok : Bool) : ApplyProgress Hash :=
  match t.phase with
  | .confirmDurability => if ok then .next .checkAuthored else .done .superseded false
  | .savePointer => .next .review
  | _ => .done .applied false

/-- A section of an apply run with nothing in between, its turns under the lock included. -/
def sectionAlone (me : EndpointId) (turn : Turn) (served : Bool)
    (task : Nat) (t : ApplyTask Hash) (n : Node Hash) : ApplyProgress Hash × Node Hash :=
  if takesLock t.phase then
    match takeLock codec me turn.disk task t n with
    | (.inl progress, n) => (progress, n)
    | (.inr phase, n) =>
      match phase.alone codec turn 5 n with
      | (.done ok, n) => (unlocked t ok, n)
      | (_, n) => (.next t.phase, n)
  else t.advance codec me turn.disk served n

/-- Cut up at its awaits, an apply run still does what `ApplyTask.advance` says, as long as no
one writes the state in between. -/
theorem apply_alone (me : EndpointId) (turn : Turn) (served : Bool)
    (task : Nat) (t : ApplyTask Hash) (n : Node Hash) :
    sectionAlone codec me turn served task t n = t.advance codec me turn.disk served n := by
  have ends (ok : Bool) : (Holder.apply task).after ok = (.done ok : Next Hash) := rfl
  unfold sectionAlone ApplyTask.advance takeLock unlocked
  cases t.phase with
  | confirmDurability =>
    cases waiting : n.net.unconfirmedDurableHash with
    | none => simp [takesLock, Node.confirmPendingSnapshotDurability, waiting]
    | some pending =>
      simp [takesLock, Node.confirmPendingSnapshotDurability, waiting,
        persist_alone codec turn n _ _ ends]
  | savePointer =>
    simp only [takesLock, ↓reduceIte, persistGroupHashIfNeeded_eq]
    cases keptHash turn.disk t.record.hash true n with
    | superseded | durable => rfl
    | write published => simp only [persist_alone codec turn n _ _ ends]
  | commit generation data =>
    simp only [takesLock, ↓reduceIte, commitGroupBlob_eq]
    cases refusedBlob codec me turn.disk t.deviceCert t.record generation data n with
    | some progress => rfl
    | none => simp only [persist_alone codec turn _ _ _ ends]
  | _ => rfl

end

/-! ## Steps -/

inductive PublishAct (Hash : Type) where
  /-- A command writes the group under the state's lock only. -/
  | write (group : GroupBlob) (refreshes : Bool)
  | commit
  /-- An admission takes the lock and seats its row. -/
  | seat (group : GroupBlob)
  | publish (disk : Disk)
  | serve (disk : Disk)
  | proceed (turn : Turn)
  | receive (task : Nat) (record : SignedGroupRecord Hash) (source : RecordSource)
      (deviceCert : Option DeviceCert)
  | advance (task : Nat) (disk : Disk) (served : Bool)
  | deliver (packet : Nat) (answered : Bool)
  | confirm (packet : Nat) (disk : Disk)
  | crash
  | load (restart : CoordinatorRestart Hash)
  | store (disk : Disk)
  | save (disk : Disk)
  | start (timestamp : Nat)

inductive PublishOut (Hash : Type) where
  | quiet
  | signed (issued : Issued Hash)
  /-- A signed record has reached this node. -/
  | received (record : SignedGroupRecord Hash)
  /-- The relay took a record. -/
  | accepted (record : SignedGroupRecord Hash)
  deriving DecidableEq

/-- The relay keeps the record with the greatest timestamp. -/
def keepLatest (held : Option (Issued Hash)) (new : Issued Hash) : Issued Hash :=
  match held with
  | some held => if held.record.timestamp < new.record.timestamp then new else held
  | none => new

namespace Publishing

variable (codec : GroupCodec Hash) (me : EndpointId) (s : Publishing Hash)

/-- The record is signed, and on its way. -/
def signs (hash : Hash) (timestamp : Nat) : Option (PublishOut Hash × Publishing Hash) :=
  if s.clock < timestamp then
    let issued := ⟨⟨hash, timestamp⟩, s.moves⟩
    some (.signed issued, { s with
      locked := none
      inFlight := s.inFlight ++ [(issued, true)]
      clock := timestamp })
  else none

/-- The holder is done; an apply run goes on. -/
def release (holder : Option Nat) (ok : Bool) : Publishing Hash :=
  match holder with
  | some task =>
    { s with
      locked := none
      applies := Function.update s.applies task
        ((s.applies task).bind fun t => (unlocked t ok).resume t) }
  | none => { s with locked := none }

def proceed (turn : Turn) (phase : Locked Hash) : Option (PublishOut Hash × Publishing Hash) :=
  match phase.step codec turn s.node with
  | (.go next, node) => some (.quiet, { s with node, locked := some next })
  | (.done ok, node) => some (.quiet, { s with node }.release phase.task ok)
  | (.sign hash, node) => { s with node }.signs hash turn.timestamp

def advance (task : Nat) (disk : Disk) (served : Bool) (t : ApplyTask Hash) :
    Option (PublishOut Hash × Publishing Hash) :=
  if takesLock t.phase then
    if s.locked.isSome then none
    else
      match takeLock codec me disk task t s.node with
      | (.inl progress, node) => some (.quiet, { s with
          node, applies := Function.update s.applies task (progress.resume t) })
      | (.inr phase, node) => some (.quiet, { s with node, locked := some phase })
  else
    let (progress, node) := t.advance codec me disk served s.node
    some (.quiet, { s with node, applies := Function.update s.applies task (progress.resume t) })

/-- A step of a daemon whose network runs. -/
def runningStep : PublishAct Hash → Option (PublishOut Hash × Publishing Hash)
  | .write group refreshes =>
    let net := { s.node.net with group := group }
    some (.quiet, { s with
      node := { s.node with net := if refreshes then net.refreshSnapshot codec else net } })
  | .commit =>
    if s.locked.isSome then none else some (.quiet, { s with locked := some (.encode .edit) })
  | .seat group =>
    if s.locked.isSome then none
    else
      some (.quiet, { s with
        node := { s.node with net := { s.node.net with group := group } }
        locked := some (.encode (.admission .seated)) })
  | .publish disk =>
    if s.locked.isSome then none
    else
      some (.quiet, { s with
        locked := some (match s.node.groupHashNeedingPersistence disk with
          | some hash => .persist .publish hash false
          | none => .choose) })
  | .serve disk =>
    match s.locked, s.node.net.convergedHash with
    | none, some hash =>
      some (.quiet, { s with
        locked := match keptHash disk hash false s.node with
          | .write published => some (.persist .serve hash published)
          | .superseded | .durable => none })
    | _, _ => none
  | .proceed turn => s.locked.bind (s.proceed codec turn)
  | .receive task record source deviceCert =>
    if s.applies task = none then
      some (.received record, { s with
        applies := Function.update s.applies task
          (some ⟨record, source, deviceCert, .confirmDurability⟩) })
    else none
  | .advance task disk served => (s.applies task).bind (s.advance codec me task disk served)
  | .confirm packet disk =>
    match s.locked, s.taken[packet]? with
    | none, some issued =>
      some (.quiet, { s with
        node := (s.node.confirmPublication disk issued.record.hash issued.record.timestamp).2
        taken := s.taken.eraseIdx packet })
    | _, _ => none
  | _ => none

/-- A step of a daemon that brings its network up again. -/
def startingStep : PublishAct Hash → Option (PublishOut Hash × Publishing Hash)
  | .load restart =>
    match s.stage, s.node.config with
    | .down, some saved =>
      let out := match restart.answer with
        | .record r _ => .received r
        | _ => .quiet
      match restoreRosterFromBlob codec restart.served restart.answer saved.lastGroupHash
          saved.lastGroupHashPublished with
      | some restored =>
        if restart.disk.blobWrites then
          some (out, { s with
            node := { s.node with blobs := insert restored.hash s.node.blobs }
            stage := .loaded restored (restart.sealed restored.blob) saved.lastRecordTimestamp })
        else some (out, s)
      | none => some (out, s)
    | _, _ => none
  | .store disk =>
    match s.stage with
    | .loaded restored group floor =>
      if disk.blobWrites then
        some (.quiet, { s with
          node := { s.node with blobs := insert (codec.groupBlobHash group) s.node.blobs }
          stage := .sealed restored group floor })
      else some (.quiet, { s with stage := .down })
    | _ => none
  | .save disk =>
    match s.stage with
    | .sealed restored group floor =>
      let hash := codec.groupBlobHash group
      let (outcome, node) := s.node.updateNetwork disk fun cfg => { cfg with
        lastGroupHash := some hash
        lastGroupHashPublished := restored.published && hash = restored.hash }
      if outcome = .saved then
        some (.quiet, { s with
          node := { node with net := .ofBlob codec group true floor }
          stage := .starting hash })
      else some (.quiet, { s with node, stage := .down })
    | _ => none
  | .start timestamp =>
    match s.stage with
    | .starting hash => { s with stage := .running }.signs hash timestamp
    | _ => none
  | _ => none

/-- What the network and the machine do to it. -/
def step (act : PublishAct Hash) : Option (PublishOut Hash × Publishing Hash) :=
  match act with
  | .deliver packet answered =>
    s.inFlight[packet]?.map fun (issued, awaited) =>
      (if answered then .accepted issued.record else .quiet, { s with
        inFlight := s.inFlight.eraseIdx packet
        taken := if answered && awaited then s.taken ++ [issued] else s.taken
        relay := some (keepLatest s.relay issued)
        served := s.served ++ [issued] })
  | .crash =>
    some (.quiet, { s with
      stage := .down
      locked := none
      applies := fun _ => none
      inFlight := s.inFlight.map fun (issued, _) => (issued, false)
      taken := [] })
  | act =>
    match s.stage with
    | .running => s.runningStep codec me act
    | _ => s.startingStep codec act

/-- Every move of the saved pointer is counted. -/
def tallied (before : Publishing Hash) : Publishing Hash :=
  { s with
    moves := if savedPointer s.node = savedPointer before.node then s.moves else s.moves + 1 }

end Publishing

def publishStep (codec : GroupCodec Hash) (me : EndpointId) (s : Publishing Hash)
    (act : PublishAct Hash) : Option (PublishOut Hash × Publishing Hash) :=
  (s.step codec me act).map fun (out, s') => (out, s'.tallied s)

/-! ## What a step does -/

/-- A restart sees the record that the relay answers with. -/
def heard (restart : CoordinatorRestart Hash) : PublishOut Hash :=
  match restart.answer with
  | .record r _ => .received r
  | _ => .quiet

/-- What a restart saves: the pointer to what it has sealed. -/
def repoint (restored : RestoredGroupBlob Hash) (hash : Hash) (cfg : NetworkConfig Hash) :
    NetworkConfig Hash :=
  { cfg with
    lastGroupHash := some hash
    lastGroupHashPublished := restored.published && hash = restored.hash }

namespace Publishing

/-- The cases of `Publishing.step` that take place, with what each has found. -/
inductive Moves (codec : GroupCodec Hash) (me : EndpointId) (s : Publishing Hash) :
    PublishAct Hash → PublishOut Hash → Publishing Hash → Prop
  | write (group : GroupBlob) (refreshes : Bool) (running : s.stage = .running) :
      Moves codec me s (.write group refreshes) .quiet { s with
        node := { s.node with net :=
          if refreshes then { s.node.net with group := group }.refreshSnapshot codec
          else { s.node.net with group := group } } }
  | commit (running : s.stage = .running) (free : s.locked = none) :
      Moves codec me s .commit .quiet { s with locked := some (.encode .edit) }
  | seat (group : GroupBlob) (running : s.stage = .running) (free : s.locked = none) :
      Moves codec me s (.seat group) .quiet { s with
        node := { s.node with net := { s.node.net with group := group } }
        locked := some (.encode (.admission .seated)) }
  | publish (disk : Disk) (running : s.stage = .running) (free : s.locked = none) :
      Moves codec me s (.publish disk) .quiet { s with
        locked := some (match s.node.groupHashNeedingPersistence disk with
          | some hash => .persist .publish hash false
          | none => .choose) }
  | serve (disk : Disk) {hash : Hash} (running : s.stage = .running) (free : s.locked = none)
      (converged : s.node.net.convergedHash = some hash) :
      Moves codec me s (.serve disk) .quiet { s with
        locked := match keptHash disk hash false s.node with
          | .write published => some (.persist .serve hash published)
          | .superseded | .durable => none }
  | goes (turn : Turn) {node : Node Hash} (running : s.stage = .running)
      (held : s.locked = some phase) (taken : phase.step codec turn s.node = (.go next, node)) :
      Moves codec me s (.proceed turn) .quiet { s with node, locked := some next }
  | ends (turn : Turn) {node : Node Hash} (running : s.stage = .running)
      (held : s.locked = some phase) (taken : phase.step codec turn s.node = (.done ok, node)) :
      Moves codec me s (.proceed turn) .quiet ({ s with node }.release phase.task ok)
  | signs (turn : Turn) {hash : Hash} {node : Node Hash} (running : s.stage = .running)
      (held : s.locked = some phase) (taken : phase.step codec turn s.node = (.sign hash, node))
      (signed : { s with node }.signs hash turn.timestamp = some (out, s')) :
      Moves codec me s (.proceed turn) out s'
  | receive (task : Nat) (record : SignedGroupRecord Hash) (source : RecordSource)
      (deviceCert : Option DeviceCert) (running : s.stage = .running) :
      Moves codec me s (.receive task record source deviceCert) (.received record) { s with
        applies := Function.update s.applies task
          (some ⟨record, source, deviceCert, .confirmDurability⟩) }
  | answers (task : Nat) (disk : Disk) (served : Bool) {node : Node Hash}
      (running : s.stage = .running) (runs : s.applies task = some t) (free : s.locked = none)
      (taken : takeLock codec me disk task t s.node = (.inl progress, node)) :
      Moves codec me s (.advance task disk served) .quiet { s with
        node, applies := Function.update s.applies task (progress.resume t) }
  | locks (task : Nat) (disk : Disk) (served : Bool) {node : Node Hash}
      (running : s.stage = .running) (runs : s.applies task = some t) (free : s.locked = none)
      (taken : takeLock codec me disk task t s.node = (.inr phase, node)) :
      Moves codec me s (.advance task disk served) .quiet { s with node, locked := some phase }
  | advances (task : Nat) (disk : Disk) (served : Bool) (running : s.stage = .running)
      (runs : s.applies task = some t) (beside : takesLock t.phase = false) :
      Moves codec me s (.advance task disk served) .quiet { s with
        node := (t.advance codec me disk served s.node).2
        applies := Function.update s.applies task
          ((t.advance codec me disk served s.node).1.resume t) }
  | confirm (packet : Nat) (disk : Disk) (running : s.stage = .running) (free : s.locked = none)
      (at_packet : s.taken[packet]? = some issued) :
      Moves codec me s (.confirm packet disk) .quiet { s with
        node := (s.node.confirmPublication disk issued.record.hash issued.record.timestamp).2
        taken := s.taken.eraseIdx packet }
  | deliver (packet : Nat) (answered : Bool)
      (at_packet : s.inFlight[packet]? = some (issued, awaited)) :
      Moves codec me s (.deliver packet answered)
        (if answered then .accepted issued.record else .quiet) { s with
          inFlight := s.inFlight.eraseIdx packet
          taken := if answered && awaited then s.taken ++ [issued] else s.taken
          relay := some (keepLatest s.relay issued)
          served := s.served ++ [issued] }
  | crash :
      Moves codec me s .crash .quiet { s with
        stage := .down
        locked := none
        applies := fun _ => none
        inFlight := s.inFlight.map fun (issued, _) => (issued, false)
        taken := [] }
  | load (restart : CoordinatorRestart Hash) (stage : s.stage = .down)
      (held : s.node.config = some saved)
      (restores : restoreRosterFromBlob codec restart.served restart.answer saved.lastGroupHash
        saved.lastGroupHashPublished = some restored) :
      Moves codec me s (.load restart) (heard restart) { s with
        node := { s.node with blobs := insert restored.hash s.node.blobs }
        stage := .loaded restored (restart.sealed restored.blob) saved.lastRecordTimestamp }
  | unloaded (restart : CoordinatorRestart Hash) (stage : s.stage = .down) :
      Moves codec me s (.load restart) (heard restart) s
  | store (disk : Disk) (stage : s.stage = .loaded restored group floor) :
      Moves codec me s (.store disk) .quiet { s with
        node := { s.node with blobs := insert (codec.groupBlobHash group) s.node.blobs }
        stage := .sealed restored group floor }
  | unstored (disk : Disk) (stage : s.stage = .loaded restored group floor) :
      Moves codec me s (.store disk) .quiet { s with stage := .down }
  | save (disk : Disk) (stage : s.stage = .sealed restored group floor)
      (saved : (s.node.updateNetwork disk (repoint restored (codec.groupBlobHash group))).1 =
        .saved) :
      Moves codec me s (.save disk) .quiet { s with
        node :=
          { (s.node.updateNetwork disk (repoint restored (codec.groupBlobHash group))).2 with
            net := .ofBlob codec group true floor }
        stage := .starting (codec.groupBlobHash group) }
  | unsaved (disk : Disk) (stage : s.stage = .sealed restored group floor) :
      Moves codec me s (.save disk) .quiet { s with
        node := (s.node.updateNetwork disk (repoint restored (codec.groupBlobHash group))).2
        stage := .down }
  | start (timestamp : Nat) {hash : Hash} (stage : s.stage = .starting hash)
      (signed : { s with stage := .running }.signs hash timestamp = some (out, s')) :
      Moves codec me s (.start timestamp) out s'

variable {codec me s} {act : PublishAct Hash} {out : PublishOut Hash} {s' : Publishing Hash}

theorem moves_of_running (running : s.stage = .running)
    (step : s.runningStep codec me act = some (out, s')) : Moves codec me s act out s' := by
  unfold runningStep at step
  split at step
  · cases step
    exact .write _ _ running
  · split at step
    · cases step
    · next idle =>
      cases step
      exact .commit running (Option.not_isSome_iff_eq_none.mp idle)
  · split at step
    · cases step
    · next idle =>
      cases step
      exact .seat _ running (Option.not_isSome_iff_eq_none.mp idle)
  · split at step
    · cases step
    · next idle =>
      cases step
      exact .publish _ running (Option.not_isSome_iff_eq_none.mp idle)
  · split at step
    · next free converged =>
      cases step
      exact .serve _ running free converged
    · cases step
  · obtain ⟨phase, held, step⟩ := Option.bind_eq_some_iff.mp step
    unfold proceed at step
    split at step
    · next taken =>
      cases step
      exact .goes _ running held taken
    · next taken =>
      cases step
      exact .ends _ running held taken
    · next taken => exact .signs _ running held taken step
  · split at step
    · cases step
      exact .receive _ _ _ _ running
    · cases step
  · obtain ⟨t, runs, step⟩ := Option.bind_eq_some_iff.mp step
    unfold advance at step
    split at step
    · split at step
      · cases step
      · next idle =>
        have free := Option.not_isSome_iff_eq_none.mp idle
        split at step
        · next taken =>
          cases step
          exact .answers _ _ _ running runs free taken
        · next taken =>
          cases step
          exact .locks _ _ _ running runs free taken
    · next beside =>
      cases step
      exact .advances _ _ _ running runs (Bool.eq_false_iff.mpr beside)
  · split at step
    · next free at_packet =>
      cases step
      exact .confirm _ _ running free at_packet
    · cases step
  · cases step

theorem moves_of_starting (step : s.startingStep codec act = some (out, s')) :
    Moves codec me s act out s' := by
  unfold startingStep at step
  split at step
  · next restart =>
    split at step
    · next saved stage held =>
      -- the answer is looked at twice, so the restored roster is named before the split
      cases restores : restoreRosterFromBlob codec restart.served restart.answer
          saved.lastGroupHash saved.lastGroupHashPublished with
      | none =>
        rw [restores] at step
        cases step
        exact .unloaded _ stage
      | some restored =>
        rw [restores] at step
        by_cases writes : restart.disk.blobWrites = true
        · cases (if_pos writes).symm.trans step
          exact .load _ stage held restores
        · cases (if_neg writes).symm.trans step
          exact .unloaded _ stage
    · cases step
  · split at step
    · next stage =>
      split at step
      · cases step
        exact .store _ stage
      · cases step
        exact .unstored _ stage
    · cases step
  · split at step
    · next stage =>
      dsimp only at step
      split at step
      · next saved =>
        cases step
        exact .save _ stage saved
      · cases step
        exact .unsaved _ stage
    · cases step
  · split at step
    · next stage => exact .start _ stage step
    · cases step
  · cases step

theorem step_moves (step : s.step codec me act = some (out, s')) : Moves codec me s act out s' := by
  unfold Publishing.step at step
  split at step
  · obtain ⟨⟨issued, awaited⟩, at_packet, same⟩ := Option.map_eq_some_iff.mp step
    cases same
    exact .deliver _ _ at_packet
  · cases step
    exact .crash
  · split at step
    · next running => exact moves_of_running running step
    · exact moves_of_starting step

end Publishing

/-- `create_network_inner` has sealed and saved a network of its own. -/
def founded (codec : GroupCodec Hash) (key : EndpointId) (group : GroupBlob) : Publishing Hash where
  node :=
    { net := .ofBlob codec group true none
      config := some ⟨some key, some (codec.groupBlobHash group), false, none⟩
      blobs := {codec.groupBlobHash group} }
  stage := .starting (codec.groupBlobHash group)
  locked := none
  applies := fun _ => none
  inFlight := []
  taken := []
  relay := none
  served := []
  clock := 0
  moves := 0

/-- A network that others have published, `record` last. A member that `handle_admin_grant`
promotes has committed the group with its own role; one that is welcomed with the key has
saved the group it was admitted to. -/
def granted (codec : GroupCodec Hash) (key : EndpointId) (group : GroupBlob)
    (record : SignedGroupRecord Hash) (published : Bool) : Publishing Hash :=
  let floor := some record.timestamp
  { founded codec key group with
    node :=
      { net := .ofBlob codec group true floor
        config := some ⟨some key, some (codec.groupBlobHash group), published, floor⟩
        blobs := {codec.groupBlobHash group} }
    stage := .running
    relay := some ⟨record, 0⟩
    served := [⟨record, 0⟩]
    clock := record.timestamp }

/-- How a coordinator begins. -/
inductive Begins (codec : GroupCodec Hash) : Publishing Hash → Prop
  | founded (key : EndpointId) (group : GroupBlob) : Begins codec (founded codec key group)
  | granted (key : EndpointId) (group : GroupBlob) (record : SignedGroupRecord Hash)
      (published : Bool) (named : published = true → record.hash = codec.groupBlobHash group) :
      Begins codec (granted codec key group record published)

end Rayfish.Publisher
