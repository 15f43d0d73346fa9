import Rayfish.Mesh.SignedPointer

/-!
# What the relay holds

Records are signed under the lock, so their times are in the order in which the pointer moved,
and the relay follows (`InOrder`). The rest is about a pointer that is marked published while
this node is the only one that signs: records for other hashes are under the replay floor
(`Settled`), and a record that is applied to a saved group leaves the pointer where it is
(`takeLock_steady`).
-/

namespace Rayfish.Publisher

open Lib

variable {Hash : Type}

/-- The records that were signed and are not lost. -/
def Publishing.log (s : Publishing Hash) : List (Issued Hash) :=
  s.inFlight.map Prod.fst ++ s.served

/-! ## The order of records -/

structure InOrder (s : Publishing Hash) : Prop where
  times : ∀ i ∈ s.log, i.record.timestamp ≤ s.clock
  generations : ∀ i ∈ s.log, i.generation ≤ s.moves
  order : ∀ i ∈ s.log, ∀ j ∈ s.log, i.record.timestamp < j.record.timestamp →
    i.generation ≤ j.generation
  relay : ∀ i, s.relay = some i → i ∈ s.served
  latest : ∀ i ∈ s.served, ∃ held, s.relay = some held ∧ i.record.timestamp ≤ held.record.timestamp

variable {i : Issued Hash} {codec : GroupCodec Hash} {me : EndpointId} {published : Bool}
  {disk : Disk}

section Order

variable {s s' : Publishing Hash} {out : PublishOut Hash}

theorem Still.log (still : Still s s') : s'.log = s.log := by
  rw [Publishing.log, Publishing.log, still.inFlight, still.served]

/-- What is delivered was under way, and nothing else changes. -/
theorem delivered_log (at_packet : s.inFlight[packet]? = some (issued, awaited))
    (inFlight : s'.inFlight = s.inFlight.eraseIdx packet)
    (served : s'.served = s.served ++ [issued]) : s'.log ⊆ s.log := by
  intro i member
  rw [Publishing.log, inFlight, served] at member
  rw [Publishing.log]
  rcases List.mem_append.mp member with flying | sent
  · obtain ⟨pair, at_pair, rfl⟩ := List.mem_map.mp flying
    exact List.mem_append_left _ (List.mem_map_of_mem (List.mem_of_mem_eraseIdx at_pair))
  · rcases mem_snoc_cases sent with before | rfl
    · exact List.mem_append_right _ before
    · exact List.mem_append_left _ (List.mem_map_of_mem (List.mem_of_getElem? at_packet))

theorem signed_log (member : i ∈ s'.log)
    (inFlight : s'.inFlight = s.inFlight ++ [(issued, awaited)]) (served : s'.served = s.served) :
    i ∈ s.log ∨ i = issued := by
  rw [Publishing.log, inFlight, served, List.map_append] at member
  rw [Publishing.log]
  rcases List.mem_append.mp member with flying | sent
  · exact (mem_snoc_cases flying).imp_left (List.mem_append_left _)
  · exact .inl (List.mem_append_right _ sent)

theorem keepLatest_cases (held : Option (Issued Hash)) (new : Issued Hash) :
    (∀ old, held = some old → old.record.timestamp < new.record.timestamp) ∧
        keepLatest held new = new ∨
      ∃ old, held = some old ∧ ¬old.record.timestamp < new.record.timestamp ∧
        keepLatest held new = old := by
  unfold keepLatest
  split
  · next old =>
    split
    · next later =>
      refine .inl ⟨?_, rfl⟩
      rintro _ ⟨⟩
      exact later
    · next earlier => exact .inr ⟨old, rfl, earlier, rfl⟩
  · exact .inl ⟨nofun, rfl⟩

theorem InOrder.sends (order : InOrder s) (sends : Sends s out s') : InOrder s' := by
  cases sends with
  | still _ still =>
    obtain ⟨times, generations, sorted, relay, latest⟩ := order
    rw [← still.log, ← still.clock] at times
    rw [← still.log, ← still.moves] at generations
    rw [← still.log] at sorted
    rw [← still.relay, ← still.served] at relay latest
    exact ⟨times, generations, sorted, relay, latest⟩
  | @signs timestamp _ hash _ later _ inFlight served relay clock moves =>
    have member : ∀ {i}, i ∈ s'.log → i ∈ s.log ∨ i = ⟨⟨hash, timestamp⟩, s.moves⟩ :=
      fun logged => signed_log logged inFlight served
    have before : ∀ i ∈ s.log, i.record.timestamp < timestamp := fun i logged =>
      (order.times i logged).trans_lt later
    refine ⟨fun i logged => ?_, fun i logged => ?_, fun i logged j logged' earlier => ?_, ?_, ?_⟩
    · rw [clock]
      rcases member logged with old | rfl
      · exact (before i old).le
      · exact le_rfl
    · rw [moves]
      rcases member logged with old | rfl
      · exact order.generations i old
      · exact le_rfl
    · rcases member logged with old | rfl
      · rcases member logged' with old' | rfl
        · exact order.order i old j old' earlier
        · exact order.generations i old
      · rcases member logged' with old' | rfl
        · exact absurd earlier (before j old').not_gt
        · exact le_rfl
    · rw [relay, served]
      exact order.relay
    · rw [relay, served]
      exact order.latest
  | @delivers _ packet issued awaited _ _ at_packet inFlight served relay clock moves =>
    have logged := delivered_log at_packet inFlight served
    refine ⟨fun i member => ?_, fun i member => ?_, fun i member j member' => ?_, ?_, ?_⟩
    · rw [clock]
      exact order.times i (logged member)
    · rw [moves]
      exact order.generations i (logged member)
    · exact order.order i (logged member) j (logged member')
    · rw [relay, served]
      rintro _ ⟨⟩
      rcases keepLatest_cases s.relay issued with ⟨-, new⟩ | ⟨old, held, -, kept⟩
      · rw [new]
        exact mem_snoc
      · rw [kept]
        exact List.mem_append_left _ (order.relay old held)
    · rw [relay, served]
      intro i member
      refine ⟨_, rfl, ?_⟩
      rcases keepLatest_cases s.relay issued with ⟨later, new⟩ | ⟨old, held, earlier, kept⟩
      · rw [new]
        rcases mem_snoc_cases member with before | rfl
        · obtain ⟨held, at_relay, above⟩ := order.latest i before
          exact above.trans (later held at_relay).le
        · exact le_rfl
      · rw [kept]
        rcases List.mem_append.mp member with before | now
        · obtain ⟨other, at_relay, above⟩ := order.latest i before
          cases held.symm.trans at_relay
          exact above
        · cases List.mem_singleton.mp now
          exact not_lt.mp earlier

/-- The relay goes on to a later generation, or stays. -/
theorem InOrder.relay_le (order : InOrder s) (sends : Sends s out s')
    (holds : s.relay = some held) :
    ∃ kept, s'.relay = some kept ∧ held.generation ≤ kept.generation := by
  cases sends with
  | still _ still => exact ⟨held, still.relay.trans holds, le_rfl⟩
  | signs _ _ _ _ _ relay => exact ⟨held, relay.trans holds, le_rfl⟩
  | @delivers _ packet issued awaited _ _ at_packet inFlight served relay clock moves =>
    refine ⟨_, relay, ?_⟩
    have flying : issued ∈ s.log :=
      List.mem_append_left _ (List.mem_map_of_mem (List.mem_of_getElem? at_packet))
    have held_log : held ∈ s.log := List.mem_append_right _ (order.relay held holds)
    rcases keepLatest_cases s.relay issued with ⟨later, new⟩ | ⟨old, at_relay, -, kept⟩
    · rw [new]
      exact order.order held held_log issued flying (later held holds)
    · rw [kept]
      cases holds.symm.trans at_relay
      exact le_rfl

theorem InOrder.step [DecidableEq Hash] (order : InOrder s)
    (step : publishStep codec me s act = some (out, s')) : InOrder s' := by
  obtain ⟨⟨_, s₁⟩, went, same⟩ := Option.map_eq_some_iff.mp step
  cases same
  obtain ⟨times, generations, sorted, relay, latest⟩ := order.sends (step_sends went)
  refine ⟨times, fun i logged => (generations i logged).trans ?_, sorted, relay, latest⟩
  unfold Publishing.tallied
  split
  · exact le_rfl
  · exact Nat.le_succ _

theorem Begins.inOrder (begins : Begins codec s) : InOrder s := by
  cases begins with
  | founded key group => exact ⟨nofun, nofun, nofun, nofun, nofun⟩
  | granted key group record published named =>
    constructor <;> simp [Publisher.granted, Publisher.founded, Publishing.log]

end Order

/-! ## Published for good -/

/-- Records for other hashes are under the floor, and the relay was sent one for this hash
after all of them. -/
structure Settled (log served : List (Issued Hash)) (floor : Option Nat) (hash : Hash) : Prop where
  older : ∀ i ∈ log, i.record.hash ≠ hash → FloorLe (some i.record.timestamp) floor
  known : ∃ i ∈ served, i.record.hash = hash ∧
    ∀ j ∈ log, j.record.hash ≠ hash → j.record.timestamp < i.record.timestamp

/-- The saved pointer is at this hash, which is published for good. -/
def Certified (log served : List (Issued Hash)) (n : Node Hash) (hash : Hash) : Prop :=
  savedPointer n = some hash ∧ Settled log served n.net.lastRecordTimestamp hash

/-- What is saved of a network whose only coordinator runs here. -/
structure Grounded (log served : List (Issued Hash)) (n : Node Hash) : Prop where
  keyed : n.net.hasKey = true
  pointed : (savedPointer n).isSome = true
  flagged : ∀ cfg, n.config = some cfg → cfg.lastGroupHashPublished = true →
    ∀ hash, cfg.lastGroupHash = some hash →
      Settled log served n.net.lastRecordTimestamp hash ∧
        Settled log served cfg.lastRecordTimestamp hash

/-- A marker with provenance, at a hash in question, is at the saved pointer. -/
def Marked (log served : List (Issued Hash)) (asked : Hash → Prop) (n : Node Hash) : Prop :=
  ∀ pending, n.net.unconfirmedDurableHash = some pending → pending.published = true →
    asked pending.hash → Certified log served n pending.hash

/-- The pointer write that the holder is on its way with, and its provenance. -/
def Locked.writes : Locked Hash → Option (Hash × Bool)
  | .persist _ hash published | .readBlob _ hash published _ | .storeBlob _ hash published
  | .writePointer _ hash published | .settle _ hash published _ => some (hash, published)
  | _ => none

/-- A pointer write leaves the markers of other hashes behind until it is settled. -/
def Locked.asks : Locked Hash → Hash → Prop
  | .settle _ hash _ _ => (· = hash)
  | _ => fun _ => True

/-- The holder of the lock writes a pointer as published only where it is. -/
structure Locked.Steady (log served : List (Issued Hash)) (n : Node Hash) (phase : Locked Hash) :
    Prop where
  certified : ∀ hash, phase.writes = some (hash, true) → Certified log served n hash
  marked : Marked log served phase.asks n

def Next.Steady (log served : List (Issued Hash)) (n : Node Hash) : Next Hash → Prop
  | .go phase => phase.Steady log served n
  | _ => Marked log served (fun _ => True) n

/-- Records are signed for the saved pointer, or delivered, and nothing is taken back. -/
structure Follows (log served log' served' : List (Issued Hash)) (n n' : Node Hash) : Prop where
  grows : ∀ i ∈ log', i ∈ log ∨ savedPointer n = some i.record.hash
  sent : served ⊆ served'
  marker : n'.net.unconfirmedDurableHash = n.net.unconfirmedDurableHash
  pointer : savedPointer n' = savedPointer n
  rises : FloorLe n.net.lastRecordTimestamp n'.net.lastRecordTimestamp

section SettledSteps

variable {log served log' served' : List (Issued Hash)} {n n' : Node Hash} {hash : Hash}
  {floor floor' : Option Nat}

theorem Settled.mono (settled : Settled log served floor hash)
    (grows : ∀ i ∈ log', i ∈ log ∨ i.record.hash = hash) (sent : served ⊆ served')
    (rises : FloorLe floor floor') : Settled log' served' floor' hash := by
  have old : ∀ i ∈ log', i.record.hash ≠ hash → i ∈ log := fun i logged other =>
    (grows i logged).resolve_right other
  obtain ⟨i, member, names, after⟩ := settled.known
  exact ⟨fun j logged other => (settled.older j (old j logged other) other).trans rises,
    i, sent member, names, fun j logged other => after j (old j logged other) other⟩

/-- A record that was signed after every record for another hash settles its own. -/
theorem Settled.of_latest (sent : i ∈ served)
    (latest : ∀ j ∈ log, j.record.hash ≠ i.record.hash → j.record.timestamp < i.record.timestamp)
    (under : FloorLe (some i.record.timestamp) floor) :
    Settled log served floor i.record.hash := by
  refine ⟨fun j logged other => ?_, i, sent, rfl, latest⟩
  rintro _ ⟨⟩
  obtain ⟨top, at_top, le⟩ := under i.record.timestamp rfl
  exact ⟨top, at_top, (latest j logged other).le.trans le⟩

theorem Certified.mono (certified : Certified log served n hash)
    (follows : Follows log served log' served' n n') : Certified log' served' n' hash := by
  obtain ⟨grows, sent, -, pointer, rises⟩ := follows
  refine ⟨pointer.trans certified.1, certified.2.mono (fun i logged => ?_) sent rises⟩
  refine (grows i logged).imp_right fun names => ?_
  exact (Option.some.inj (certified.1.symm.trans names)).symm

variable {asked : Hash → Prop}

theorem Marked.mono (marked : Marked log served asked n)
    (follows : Follows log served log' served' n n') : Marked log' served' asked n' :=
  fun pending held flag is =>
    (marked pending (follows.marker.symm.trans held) flag is).mono follows

/-- The same records, and a node that differs in nothing that is looked at. -/
theorem Marked.congr (marked : Marked log served asked n)
    (marker : n'.net.unconfirmedDurableHash = n.net.unconfirmedDurableHash)
    (pointer : savedPointer n' = savedPointer n)
    (rises : FloorLe n.net.lastRecordTimestamp n'.net.lastRecordTimestamp) :
    Marked log served asked n' :=
  marked.mono ⟨fun _ => .inl, fun _ => id, marker, pointer, rises⟩

theorem Marked.only (marked : Marked log served (fun _ => True) n) : Marked log served asked n :=
  fun pending held flag _ => marked pending held flag trivial

variable {phase : Locked Hash}

theorem Locked.Steady.mono (steady : phase.Steady log served n)
    (follows : Follows log served log' served' n n') : phase.Steady log' served' n' :=
  ⟨fun hash is => (steady.certified hash is).mono follows, steady.marked.mono follows⟩

theorem Locked.Steady.known (steady : phase.Steady log served n)
    (writes : phase.writes = some (hash, published)) :
    published = true → Certified log served n hash := by
  rintro rfl
  exact steady.certified hash writes

theorem Locked.Steady.writing (writes : phase.writes = some (hash, published))
    (certified : published = true → Certified log served n hash)
    (marked : Marked log served phase.asks n) : phase.Steady log served n := by
  refine ⟨fun other is => ?_, marked⟩
  obtain ⟨rfl, flag⟩ := Prod.mk.inj (Option.some.inj (writes.symm.trans is))
  exact certified flag

theorem Locked.Steady.idle (writes : phase.writes = none)
    (marked : Marked log served phase.asks n) :
    phase.Steady log served n :=
  ⟨fun _ is => absurd (writes.symm.trans is) nofun, marked⟩

section

variable (grounded : Grounded log served n)

include grounded

theorem Grounded.mono
    (grows : ∀ i ∈ log', i ∈ log ∨ savedPointer n = some i.record.hash)
    (sent : served ⊆ served') : Grounded log' served' n := by
  refine ⟨grounded.keyed, grounded.pointed, fun cfg held flag hash at_hash => ?_⟩
  obtain ⟨live, saved⟩ := grounded.flagged cfg held flag hash at_hash
  have pointer : savedPointer n = some hash := by
    rw [savedPointer, held]
    exact at_hash
  have names : ∀ i ∈ log', i ∈ log ∨ i.record.hash = hash := fun i logged =>
    (grows i logged).imp_right fun names => (Option.some.inj (pointer.symm.trans names)).symm
  exact ⟨live.mono names sent (.refl _), saved.mono names sent (.refl _)⟩

/-- The live state changes, and its floor does not fall. -/
theorem Grounded.withNet (keyed : net.hasKey = n.net.hasKey)
    (rises : FloorLe n.net.lastRecordTimestamp net.lastRecordTimestamp) :
    Grounded log served { n with net } := by
  refine ⟨keyed.trans grounded.keyed, grounded.pointed, fun cfg held flag hash at_hash => ?_⟩
  obtain ⟨live, saved⟩ := grounded.flagged cfg held flag hash at_hash
  exact ⟨live.mono (fun _ => .inl) (fun _ => id) rises, saved⟩

theorem Grounded.withBlobs (blobs : Finset Hash) : Grounded log served { n with blobs } :=
  ⟨grounded.keyed, grounded.pointed, grounded.flagged⟩

/-- A config transaction that flags a pointer only where it is published for good. -/
theorem Grounded.updateNetwork
    (pointed : ∀ cfg, cfg.lastGroupHash.isSome = true → (f cfg).lastGroupHash.isSome = true)
    (flagged : ∀ cfg, n.config = some cfg → (f cfg).lastGroupHashPublished = true →
      ∀ hash, (f cfg).lastGroupHash = some hash →
        Settled log served n.net.lastRecordTimestamp hash ∧
          Settled log served (f cfg).lastRecordTimestamp hash) :
    Grounded log served (n.updateNetwork disk f).2 := by
  rcases updateNetwork_cases disk f n with ⟨same, -⟩ | ⟨cfg, held, written⟩
  · rw [same]
    exact grounded
  · rw [written]
    refine ⟨grounded.keyed, pointed cfg ?_, ?_⟩
    · have at_pointer := grounded.pointed
      rw [savedPointer, held] at at_pointer
      exact at_pointer
    · rintro _ ⟨⟩
      exact flagged cfg held

end

theorem Holder.after_steady (holder : Holder) (marked : Marked log served (fun _ => True) n) :
    (holder.after ok).Steady log served n := by
  cases holder with
  | admission attempt =>
    cases attempt <;> cases ok <;> first | exact .idle rfl marked | exact marked
  | publish => cases ok <;> first | exact .idle rfl marked | exact marked
  | edit | apply task | serve => exact marked

/-- A pointer write keeps what is published, and what the holder and the marker know. -/
theorem writePointer_steady (grounded : Grounded log served n)
    (certified : published = true → Certified log served n hash)
    (marked : Marked log served (fun _ => True) n) :
    let n' := (n.updateNetwork disk (·.setPointer hash published n.net.lastRecordTimestamp)).2
    Grounded log served n' ∧ (published = true → Certified log served n' hash) ∧
      Marked log served (· = hash) n' := by
  refine ⟨grounded.updateNetwork (fun _ _ => rfl) fun cfg held flag other at_other => ?_, ?_⟩
  · cases at_other
    have settled := (certified flag).2
    exact ⟨settled, settled.mono (fun _ => .inl) (fun _ => id) (.max_right _ _)⟩
  · rcases updateNetwork_cases disk (·.setPointer hash published n.net.lastRecordTimestamp) n with
      ⟨same, -⟩ | ⟨cfg, held, written⟩
    · rw [same]
      exact ⟨certified, marked.only⟩
    · rw [written]
      refine ⟨fun flag => ⟨rfl, (certified flag).2⟩, ?_⟩
      rintro pending marker flag rfl
      exact ⟨rfl, (marked pending marker flag trivial).2⟩

variable [DecidableEq Hash] (codec : GroupCodec Hash)

/-- The marker moves to a hash whose provenance is known. -/
theorem Marked.markPending (marked : Marked log served (· = hash) n)
    (converged : n.net.convergedHash = some hash)
    (certified : published = true → Certified log served n hash) :
    Marked log served (fun _ => True)
      { n with net := n.net.markGroupHashDurabilityPending hash published } := by
  unfold NetworkState.markGroupHashDurabilityPending
  rw [if_pos converged]
  rintro _ ⟨⟩ flag -
  rcases (Bool.or_eq_true _ _).mp flag with held | now
  · obtain ⟨pending, marker, told, rfl⟩ := marker_of_any held
    exact marked pending marker told rfl
  · exact certified now

theorem Marked.effective (marked : Marked log served (fun _ => True) n)
    (certified : published = true → Certified log served n hash)
    (flag : ((n.net.unconfirmedDurableHash.filter fun pending => pending.hash = hash).map
      (·.published)).getD published = true) : Certified log served n hash := by
  rcases marker_of_getD flag with own | ⟨pending, marker, told, rfl⟩
  · exact certified own
  · exact marked pending marker told trivial

theorem markPending_keeps (net : NetworkState Hash) (hash : Hash) (published : Bool) :
    (net.markGroupHashDurabilityPending hash published).hasKey = net.hasKey ∧
      (net.markGroupHashDurabilityPending hash published).lastRecordTimestamp =
        net.lastRecordTimestamp := by
  unfold NetworkState.markGroupHashDurabilityPending
  split <;> exact ⟨rfl, rfl⟩

theorem Locked.step_floor (turn : Turn) (n : Node Hash) (phase : Locked Hash) :
    (phase.step codec turn n).2.net.lastRecordTimestamp = n.net.lastRecordTimestamp := by
  have marks : ∀ hash published,
      (n.net.markGroupHashDurabilityPending hash published).lastRecordTimestamp =
        n.net.lastRecordTimestamp := fun hash published =>
    (markPending_keeps n.net hash published).2
  cases phase with
  | writePointer holder hash published =>
    exact congrArg (·.lastRecordTimestamp) (updateNetwork_frame _ _ n).2
  | settle holder hash published saved =>
    cases saved with
    | true =>
      show (n.net.confirmCurrentGroupHashDurable hash).lastRecordTimestamp = _
      unfold NetworkState.confirmCurrentGroupHashDurable
      split <;> rfl
    | false => exact marks hash published
  | _ =>
    unfold Locked.step
    dsimp only
    repeat' split
    all_goals first | rfl | exact marks _ _

theorem Grounded.markPending (grounded : Grounded log served n) (hash : Hash) (published : Bool) :
    Grounded log served
      { n with net := n.net.markGroupHashDurabilityPending hash published } := by
  obtain ⟨keyed, floor⟩ := markPending_keeps n.net hash published
  exact grounded.withNet keyed (floor ▸ .refl _)

theorem Locked.step_steady (turn : Turn) (grounded : Grounded log served n)
    (steady : phase.Steady log served n) (aligned : phase.Aligned n) :
    Grounded log served (phase.step codec turn n).2 ∧
      (phase.step codec turn n).1.Steady log served (phase.step codec turn n).2 := by
  have marked := steady.marked
  cases phase with
  | encode holder =>
    rw [Locked.step]
    split
    · exact ⟨grounded, holder.after_steady marked⟩
    · exact ⟨grounded.withNet rfl (.refl _), .idle rfl (marked.congr rfl rfl (.refl _))⟩
  | storeSnapshot holder hash =>
    rw [Locked.step]
    split
    · exact ⟨grounded.withBlobs _, .idle rfl (marked.congr rfl rfl (.refl _))⟩
    · exact ⟨grounded.markPending hash false,
        holder.after_steady (Marked.markPending marked.only aligned (absurd · Bool.false_ne_true))⟩
  | checkSnapshot holder hash =>
    rw [Locked.step]
    split
    · exact ⟨grounded, .writing rfl (absurd · Bool.false_ne_true) marked⟩
    · exact ⟨grounded, .idle rfl marked⟩
  | persist holder hash published =>
    rw [Locked.step]
    split
    · exact ⟨grounded, holder.after_steady marked⟩
    · exact ⟨grounded, .writing rfl (Marked.effective marked (steady.known rfl)) marked⟩
  | readBlob holder hash published held =>
    rw [Locked.step]
    split
    · exact ⟨grounded, .writing rfl (steady.known rfl) marked⟩
    split
    · exact ⟨grounded, .writing rfl (steady.known rfl) marked⟩
    · exact ⟨grounded.markPending hash published,
        holder.after_steady (Marked.markPending marked.only aligned (steady.known rfl))⟩
  | storeBlob holder hash published =>
    rw [Locked.step]
    split
    · exact ⟨grounded.withBlobs _, .writing rfl (steady.known rfl) (marked.congr rfl rfl (.refl _))⟩
    · exact ⟨grounded.markPending hash published,
        holder.after_steady (Marked.markPending marked.only aligned (steady.known rfl))⟩
  | writePointer holder hash published =>
    obtain ⟨grounded, certified, marked⟩ := writePointer_steady grounded (steady.known rfl) marked
    exact ⟨grounded, .writing rfl certified marked⟩
  | settle holder hash published saved =>
    obtain ⟨converged, -⟩ := aligned
    cases saved with
    | true =>
      rw [Locked.step, if_pos rfl]
      unfold NetworkState.confirmCurrentGroupHashDurable
      rw [if_pos converged]
      refine ⟨grounded.withNet rfl (.refl _), holder.after_steady fun pending held => ?_⟩
      cases held
    | false =>
      rw [Locked.step, if_neg Bool.false_ne_true]
      exact ⟨grounded.markPending hash published,
        holder.after_steady (Marked.markPending marked converged (steady.known rfl))⟩
  | choose | target =>
    rw [Locked.step]
    split
    · refine ⟨grounded, ?_⟩
      split
      · exact .idle rfl marked
      · exact marked
    · exact ⟨grounded, marked⟩
  | inspect hash | inspectSaved hash | inspectBlob hash =>
    refine ⟨grounded, ?_⟩
    rw [Locked.step]
    split
    · exact .idle rfl marked
    · exact marked
  | sign hash =>
    refine ⟨grounded, ?_⟩
    rw [Locked.step]
    dsimp only
    split
    · exact marked
    · exact marked
  | undo =>
    rw [Locked.step]
    dsimp only
    split
    · exact ⟨grounded.withNet rfl (.refl _), .idle rfl (marked.congr rfl rfl (.refl _))⟩
    · exact ⟨grounded, .idle rfl marked⟩
  | retain =>
    refine ⟨grounded.withNet rfl (.refl _), .idle rfl ?_⟩
    rintro _ ⟨⟩ flag
    cases flag

end SettledSteps

/-! ## Apply runs -/

section ApplyRuns

variable {log served : List (Issued Hash)} {n : Node Hash} {t : ApplyTask Hash}

/-- The record was signed after every record for another hash. -/
def Latest (log : List (Issued Hash)) (record : SignedGroupRecord Hash) : Prop :=
  ∀ i ∈ log, i.record.hash ≠ record.hash → i.record.timestamp < record.timestamp

/-- What a section that does not take the lock keeps. -/
structure Passed (log served : List (Issued Hash)) (n n' : Node Hash) : Prop where
  grounded : Grounded log served n → Grounded log served n'
  marker : n'.net.unconfirmedDurableHash = n.net.unconfirmedDurableHash
  floor : FloorLe n.net.lastRecordTimestamp n'.net.lastRecordTimestamp

theorem Passed.refl (n : Node Hash) : Passed log served n n := ⟨id, rfl, .refl _⟩

/-- The task has observed its record, which is under the floor. -/
def Noted (n : Node Hash) (t : ApplyTask Hash) : Prop :=
  t.phase.Observed → FloorLe (some t.record.timestamp) n.net.lastRecordTimestamp

theorem Passed.raiseSavedFloor (disk : Disk) (floor : Option Nat) (n : Node Hash) :
    Passed log served n (n.updateNetwork disk (·.raiseSavedRecordFloor floor)).2 := by
  refine ⟨fun grounded => ?_, ?_, ?_⟩
  · refine grounded.updateNetwork (fun _ => id) fun cfg held flag hash at_hash => ?_
    obtain ⟨live, saved⟩ := grounded.flagged cfg held flag hash at_hash
    exact ⟨live, saved.mono (fun _ => .inl) (fun _ => id) (.max_left _ _)⟩
  · rw [(updateNetwork_frame _ _ _).2]
  · rw [(updateNetwork_frame _ _ _).2]
    exact .refl _

variable [DecidableEq Hash]

theorem observe_passed (log served : List (Issued Hash)) (n : Node Hash) (hash : Hash) (ts : Nat) :
    Passed log served n { n with net := (n.net.observeCurrentRecord hash ts).2 } ∧
      ((n.net.observeCurrentRecord hash ts).1 = true →
        FloorLe (some ts) (n.net.observeCurrentRecord hash ts).2.lastRecordTimestamp) := by
  unfold NetworkState.observeCurrentRecord
  split
  · exact ⟨.refl n, (absurd · Bool.false_ne_true)⟩
  split
  · next newer =>
    exact ⟨⟨fun grounded => grounded.withNet rfl (.of_newer newer), rfl, .of_newer newer⟩,
      fun _ => .refl _⟩
  · next older => exact ⟨.refl n, fun _ => le_of_not_newer older⟩

theorem advance_passed (log served : List (Issued Hash)) (codec : GroupCodec Hash)
    (me : EndpointId) (disk : Disk) (served' : Bool) (n : Node Hash)
    (free : takesLock t.phase = false) (noted : Noted n t) :
    Passed log served n (t.advance codec me disk served' n).2 ∧
      ∀ t', (t.advance codec me disk served' n).1.resume t = some t' →
        Noted (t.advance codec me disk served' n).2 t' := by
  have quiet : ∀ {phase : ApplyPhase Hash} {n' : Node Hash}, ¬phase.Observed → ∀ t',
      (ApplyProgress.next phase).resume t = some t' → Noted n' t' := by
    rintro phase n' unobserved _ ⟨⟩ observed
    exact absurd observed unobserved
  unfold ApplyTask.advance
  split
  · next phase =>
    rw [phase] at free
    cases free
  · refine ⟨.refl n, ?_⟩
    split
    · exact nofun
    · exact quiet id
  · exact ⟨.refl n, quiet id⟩
  · obtain ⟨passed, under⟩ := observe_passed log served n t.record.hash t.record.timestamp
    refine ⟨passed, ?_⟩
    dsimp only
    split
    · next held =>
      rintro _ ⟨⟩ -
      exact under held
    · split
      · exact quiet id
      · exact nofun
  · next phase =>
    have under := noted (by rw [phase]; trivial)
    split
    · have passed : Passed log served n (n.persistRecordFloor disk t.record.timestamp) :=
        .raiseSavedFloor disk _ n
      refine ⟨passed, ?_⟩
      rintro _ ⟨⟩ -
      exact under.trans passed.floor
    · refine ⟨.refl n, ?_⟩
      rintro _ ⟨⟩ -
      exact under
  · next phase =>
    rw [phase] at free
    cases free
  · refine ⟨.refl n, ?_⟩
    split <;> exact nofun
  · split
    · split
      · exact ⟨⟨fun grounded => grounded.withBlobs _, rfl, .refl _⟩, quiet id⟩
      · exact ⟨.refl n, nofun⟩
    · exact ⟨.refl n, nofun⟩
  · refine ⟨.refl n, ?_⟩
    dsimp only
    split
    · exact nofun
    · exact quiet id
  · next phase =>
    rw [phase] at free
    cases free

/-- The sections in which an apply run takes a record for what is saved. -/
def adopts : ApplyPhase Hash → Bool
  | .savePointer | .commit _ _ => true
  | _ => false

/-- The group as it was last encoded is saved, or its marker says that it is being saved. -/
def Encoded (n : Node Hash) : Prop :=
  n.net.convergedHash = savedPointer n ∨
    ∃ pending ∈ n.net.unconfirmedDurableHash, n.net.convergedHash = some pending.hash

theorem keptHash_write {hash : Hash} {effective : Bool}
    (kept : keptHash disk hash published n = .write effective) :
    n.net.convergedHash = some hash ∧
      ((n.net.unconfirmedDurableHash.filter fun pending => pending.hash = hash).map
        (·.published)).getD published = effective := by
  unfold keptHash at kept
  split at kept
  · cases kept
  next current =>
  dsimp only at kept
  split at kept
  · cases kept
  · cases kept
    exact ⟨not_not.mp current, rfl⟩

variable {generation : Hash} {data : GroupBlob}

theorem refusedBlob_done
    (refused : refusedBlob codec me disk t.deviceCert t.record generation data n = some progress) :
    progress.resume t = none := by
  unfold refusedBlob at refused
  repeat' split at refused
  all_goals cases refused
  all_goals rfl

/-- What `commit_group_blob` has checked when it adopts a record. -/
theorem refusedBlob_none
    (accepts : refusedBlob codec me disk t.deviceCert t.record generation data n = none) :
    n.net.unconfirmedDurableHash = none ∧
      (∀ pending, n.pendingAuthoredGroupHash disk = some pending → pending = t.record.hash) ∧
      recordIsNewer t.record.timestamp n.net.lastRecordTimestamp = true := by
  unfold refusedBlob at accepts
  split at accepts
  · cases accepts
  next unmarked =>
  split at accepts
  · cases accepts
  next authored =>
  repeat' split at accepts
  all_goals cases accepts
  next newer _ _ =>
  refine ⟨Option.not_isSome_iff_eq_none.mp unmarked, fun pending held => ?_, ?_⟩
  · rw [held] at authored
    simpa using authored
  · simpa using newer

/-- A record that is adopted over a saved group is of that group. -/
theorem adopted_pointer (grounded : Grounded log served n) (logged : i ∈ log)
    (is : i.record = t.record) (reads : disk.configReads = true)
    (encoded : n.net.convergedHash = savedPointer n)
    (accepts : refusedBlob codec me disk t.deviceCert t.record generation data n = none) :
    savedPointer n = some t.record.hash := by
  obtain ⟨-, authored, newer⟩ := refusedBlob_none accepts
  obtain ⟨hash, pointer⟩ := Option.isSome_iff_exists.mp grounded.pointed
  obtain ⟨cfg, held, at_hash⟩ := Option.bind_eq_some_iff.mp pointer
  rw [pointer]
  cases flag : cfg.lastGroupHashPublished with
  | true =>
    -- a record for another hash would be under the floor
    by_contra other
    obtain ⟨live, -⟩ := grounded.flagged cfg held flag hash at_hash
    have under := live.older i logged fun same => other (by rw [← same, is])
    rw [is] at under
    exact absurd (lt_of_newer newer under) (lt_irrefl _)
  | false =>
    have pending : n.pendingAuthoredGroupHash disk = some hash := by
      unfold Node.pendingAuthoredGroupHash Node.loadNetwork
      rw [if_pos grounded.keyed, encoded, pointer, if_pos reads, held]
      exact if_pos ⟨at_hash, flag⟩
    rw [authored hash pending]

/-- A record that is applied to a group that is saved changes nothing of what is saved. -/
theorem takeLock_steady (codec : GroupCodec Hash) (me : EndpointId) (disk : Disk) (task : Nat)
    (grounded : Grounded log served n) (marked : Marked log served (fun _ => True) n)
    (sent : i ∈ served) (logged : i ∈ log) (is : i.record = t.record) (noted : Noted n t)
    (orderly : adopts t.phase = true → disk.configReads = true ∧ Encoded n ∧
      (savedPointer n = some t.record.hash → Latest log t.record)) :
    Grounded log served (takeLock codec me disk task t n).2 ∧
      FloorLe n.net.lastRecordTimestamp
        (takeLock codec me disk task t n).2.net.lastRecordTimestamp ∧
      (∀ progress, (takeLock codec me disk task t n).1 = .inl progress →
        Marked log served (fun _ => True) (takeLock codec me disk task t n).2 ∧
          ∀ t', progress.resume t = some t' → Noted (takeLock codec me disk task t n).2 t') ∧
      ∀ phase, (takeLock codec me disk task t n).1 = .inr phase →
        phase.Steady log served (takeLock codec me disk task t n).2 := by
  have settled : ∀ {floor}, savedPointer n = some t.record.hash →
      (savedPointer n = some t.record.hash → Latest log t.record) →
      FloorLe (some t.record.timestamp) floor → Settled log served floor t.record.hash := by
    intro floor pointer latest under
    rw [← is] at latest under pointer ⊢
    exact .of_latest sent (latest pointer) under
  unfold takeLock
  split
  · split
    · refine ⟨grounded, .refl _, ?_, nofun⟩
      rintro _ ⟨⟩
      refine ⟨marked, ?_⟩
      rintro _ ⟨⟩ observed
      exact observed.elim
    · next pending marker =>
      refine ⟨grounded, .refl _, nofun, ?_⟩
      rintro _ ⟨⟩
      exact .writing rfl (fun flag => marked pending marker flag trivial) marked
  · next phase =>
    have under := noted (by rw [phase]; trivial)
    have review : Marked log served (fun _ => True) n ∧ ∀ t',
        (ApplyProgress.next .review).resume t = some t' → Noted n t' := by
      refine ⟨marked, ?_⟩
      rintro _ ⟨⟩ -
      exact under
    split
    · next published kept =>
      refine ⟨grounded, .refl _, nofun, ?_⟩
      rintro _ ⟨⟩
      refine .writing rfl (fun flag => ?_) marked
      obtain ⟨converged, effective⟩ := keptHash_write kept
      obtain ⟨-, encoded, latest⟩ := orderly (by rw [phase]; rfl)
      rcases encoded with same | ⟨pending, marker, same⟩
      · have pointer : savedPointer n = some t.record.hash := same.symm.trans converged
        exact ⟨pointer, settled pointer latest under⟩
      · -- the marker is for this hash, and its provenance is the one written
        have names : pending.hash = t.record.hash := Option.some.inj (same.symm.trans converged)
        have found : n.net.unconfirmedDurableHash.filter
            (fun pending => pending.hash = t.record.hash) = some pending :=
          Option.filter_eq_some_iff.mpr ⟨marker, decide_eq_true names⟩
        rw [found] at effective
        exact names ▸ marked pending marker (effective.trans flag) trivial
    all_goals
      refine ⟨grounded, .refl _, ?_, nofun⟩
      rintro _ ⟨⟩
      exact review
  · next generation data phase =>
    split
    · next progress refused =>
      refine ⟨grounded, .refl _, ?_, nofun⟩
      rintro _ ⟨⟩
      refine ⟨marked, fun t' resumes => ?_⟩
      rw [refusedBlob_done refused] at resumes
      cases resumes
    · next accepts =>
      obtain ⟨unmarked, -, newer⟩ := refusedBlob_none accepts
      obtain ⟨reads, encoded, latest⟩ := orderly (by rw [phase]; rfl)
      have same : n.net.convergedHash = savedPointer n := by
        rcases encoded with same | ⟨pending, marker, -⟩
        · exact same
        · rw [unmarked] at marker
          cases marker
      have pointer := adopted_pointer grounded logged is reads same accepts
      refine ⟨grounded.withNet rfl (.of_newer newer), .of_newer newer, nofun, ?_⟩
      rintro _ ⟨⟩
      refine .writing rfl (fun _ => ⟨pointer, settled pointer latest (.refl _)⟩) ?_
      intro pending held
      cases unmarked.symm.trans held
  · refine ⟨grounded, .refl _, ?_, nofun⟩
    rintro _ ⟨⟩
    refine ⟨marked, ?_⟩
    rintro _ ⟨⟩
    exact noted

/-- The relay took a record: if it names the saved pointer, it was signed last. -/
theorem confirmPublication_grounded (disk : Disk) (grounded : Grounded log served n)
    (sent : i ∈ served) (latest : savedPointer n = some i.record.hash → Latest log i.record) :
    Grounded log served
      (n.confirmPublication disk i.record.hash i.record.timestamp).2 := by
  obtain ⟨rises, under⟩ := n.net.raiseRecordFloor_floor i.record.timestamp
  have raised : Grounded log served { n with net := n.net.raiseRecordFloor i.record.timestamp } :=
    grounded.withNet rfl rises
  refine raised.updateNetwork (fun _ => id) fun cfg held flag hash at_hash => ?_
  rcases (Bool.or_eq_true _ _).mp flag with old | now
  · obtain ⟨live, saved⟩ := raised.flagged cfg held old hash at_hash
    exact ⟨live, saved.mono (fun _ => .inl) (fun _ => id) (.max_left _ _)⟩
  · have names : cfg.lastGroupHash = some i.record.hash := of_decide_eq_true now
    have pointer : savedPointer n = some i.record.hash := by
      rw [savedPointer, show n.config = some cfg from held]
      exact names
    cases at_hash.symm.trans names
    exact ⟨.of_latest sent (latest pointer) under,
      .of_latest sent (latest pointer) (.max_right _ _)⟩

theorem confirmPublication_passed (disk : Disk) (sent : i ∈ served)
    (latest : savedPointer n = some i.record.hash → Latest log i.record) :
    Passed log served n (n.confirmPublication disk i.record.hash i.record.timestamp).2 ∧
      savedPointer (n.confirmPublication disk i.record.hash i.record.timestamp).2 =
        savedPointer n := by
  have net : (n.confirmPublication disk i.record.hash i.record.timestamp).2.net =
      n.net.raiseRecordFloor i.record.timestamp := (updateNetwork_frame _ _ _).2
  have beside : Beside { n with net := n.net.raiseRecordFloor i.record.timestamp }
      (n.confirmPublication disk i.record.hash i.record.timestamp).2 := .updateNetwork fun _ => rfl
  refine ⟨⟨fun grounded => confirmPublication_grounded disk grounded sent latest, ?_, ?_⟩,
    beside.pointer⟩
  · rw [net]
    rfl
  · rw [net]
    exact (n.net.raiseRecordFloor_floor _).1

end ApplyRuns

end Rayfish.Publisher
