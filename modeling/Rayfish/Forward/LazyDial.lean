import Rayfish.Forward.Inbound

/-!
# Packets that wait for a dial

The forwarding loop keeps the packets for a peer it has no connection to while it dials the
peer (`forward/lazy_dial.rs`, and the end of the loop in `forward.rs`). A run of the loop is a
sequence of such packets, of dials that end and of completions that the loop receives. The
counters are the sums over the packets kept, no budget is exceeded, whoever has packets kept
has a dial in flight, and a completion takes exactly the packets kept for its peer since the
completion before (`lazy_dial_bounded`).
-/

namespace Rayfish

open Lib

def maxPacketsPerPeer : Nat := 64

def maxBytesPerPeer : Nat := 128 * 1024

def maxPacketsTotal : Nat := 512

def maxBytesTotal : Nat := 1024 * 1024

def maxInFlight : Nat := 16

structure LazyDialQueue where
  packets : List Bytes
  bytes : Nat

structure LazyDialBuffers where
  byPeer : HashMap EndpointId LazyDialQueue
  packets : Nat
  bytes : Nat

namespace LazyDialBuffers

/-- The source adds with saturation, far above the budgets. -/
def push (b : LazyDialBuffers) (peer : EndpointId) (packet : Bytes) : Bool × LazyDialBuffers :=
  if b.packets ≥ maxPacketsTotal ∨ b.bytes + packet.length > maxBytesTotal then (false, b)
  else
    let queue := (b.byPeer.lookup peer).getD ⟨[], 0⟩
    if queue.packets.length ≥ maxPacketsPerPeer ∨
        queue.bytes + packet.length > maxBytesPerPeer then
      -- `or_default` has made the peer's queue by now
      (false, { b with byPeer := b.byPeer.insert peer queue })
    else
      (true, ⟨b.byPeer.insert peer ⟨queue.packets ++ [packet], queue.bytes + packet.length⟩,
        b.packets + 1, b.bytes + packet.length⟩)

def take (b : LazyDialBuffers) (peer : EndpointId) : List Bytes × LazyDialBuffers :=
  match b.byPeer.lookup peer with
  | none => ([], b)
  | some queue =>
    (queue.packets, ⟨b.byPeer.erase peer, b.packets - queue.packets.length, b.bytes - queue.bytes⟩)

end LazyDialBuffers

/-! ## The loop -/

structure PendingDials where
  buffered : LazyDialBuffers
  inFlight : Finset EndpointId
  /-- Dials that were spawned and have not ended. -/
  dialing : List EndpointId
  /-- Completions the loop has not received. -/
  completed : List (EndpointId × Bool)

def PendingDials.new : PendingDials := ⟨⟨∅, 0, 0⟩, ∅, [], []⟩

inductive DialAct where
  /-- A packet for a member without a live route. -/
  | packet (peer : EndpointId) (packet : Bytes)
  /-- A dial ends and reports on the channel. -/
  | dialed (peer : EndpointId) (connected : Bool)
  /-- The loop receives a completion. -/
  | receive

inductive DialOut where
  | tooManyDials
  | queued (kept : Bool)
  | reported
  | taken (peer : EndpointId) (connected : Bool) (packets : List Bytes)
  deriving DecidableEq

namespace PendingDials

/-- The end of the loop's body: the packet is kept, and the peer is dialed. -/
def packet (s : PendingDials) (peer : EndpointId) (packet : Bytes) : DialOut × PendingDials :=
  if peer ∉ s.inFlight ∧ s.inFlight.card ≥ maxInFlight then (.tooManyDials, s)
  else
    let (kept, buffered) := s.buffered.push peer packet
    if peer ∈ s.inFlight then (.queued kept, { s with buffered })
    else (.queued kept,
      { s with buffered, inFlight := insert peer s.inFlight, dialing := s.dialing ++ [peer] })

def step (s : PendingDials) : DialAct → Option (DialOut × PendingDials)
  | .packet peer packet => some (s.packet peer packet)
  | .dialed peer connected =>
    if peer ∈ s.dialing then
      some (.reported, { s with
        dialing := s.dialing.erase peer, completed := s.completed ++ [(peer, connected)] })
    else none
  | .receive =>
    match s.completed with
    | [] => none
    | (peer, connected) :: rest =>
      let (packets, buffered) := s.buffered.take peer
      some (.taken peer connected packets,
        { s with buffered, inFlight := s.inFlight.erase peer, completed := rest })

end PendingDials

def dialStep : StepRel PendingDials DialAct DialOut := fun s a out s' => s.step a = some (out, s')

abbrev DialEntry := Entry PendingDials DialAct DialOut

/-! ## What is kept -/

/-- What a step does to the packets that wait for a peer. -/
def kept (peer : EndpointId) (waiting : List Bytes) (act : DialAct) (out : DialOut) : List Bytes :=
  match act, out with
  | .packet other packet, .queued true => if other = peer then waiting ++ [packet] else waiting
  | _, .taken other _ _ => if other = peer then [] else waiting
  | _, _ => waiting

/-- The packets kept for a peer since its last completion, in the order they came. -/
def waiting (peer : EndpointId) (h : List DialEntry) : List Bytes :=
  h.foldl (fun waiting e => kept peer waiting e.act e.out) []

/-- The packets in a peer's queue. -/
def LazyDialBuffers.queued (b : LazyDialBuffers) (peer : EndpointId) : List Bytes :=
  ((b.byPeer.lookup peer).map (·.packets)).getD []

def byteCount (packets : List Bytes) : Nat := (packets.map List.length).sum

namespace LazyDialBuffers

variable {b : LazyDialBuffers} {peer : EndpointId} {packet : Bytes}

/-- The queue a push goes to. -/
def queueOf (b : LazyDialBuffers) (peer : EndpointId) : LazyDialQueue :=
  (b.byPeer.lookup peer).getD ⟨[], 0⟩

/-- Everything a push can do. -/
inductive Pushed (b : LazyDialBuffers) (peer : EndpointId) (packet : Bytes) :
    Bool × LazyDialBuffers → Prop where
  | full : Pushed b peer packet (false, b)
  | peerFull : Pushed b peer packet
      (false, { b with byPeer := b.byPeer.insert peer (b.queueOf peer) })
  | kept : b.packets < maxPacketsTotal → b.bytes + packet.length ≤ maxBytesTotal →
      (b.queueOf peer).packets.length < maxPacketsPerPeer →
      (b.queueOf peer).bytes + packet.length ≤ maxBytesPerPeer →
      Pushed b peer packet (true,
        ⟨b.byPeer.insert peer
          ⟨(b.queueOf peer).packets ++ [packet], (b.queueOf peer).bytes + packet.length⟩,
          b.packets + 1, b.bytes + packet.length⟩)

theorem push_cases (b : LazyDialBuffers) (peer : EndpointId) (packet : Bytes) :
    Pushed b peer packet (b.push peer packet) := by
  unfold push
  split
  · exact .full
  next room =>
  dsimp only
  split
  · exact .peerFull
  · next peerRoom =>
    rw [not_or, Nat.not_le, Nat.not_lt] at room peerRoom
    exact .kept room.1 room.2 peerRoom.1 peerRoom.2

theorem queued_eq (peer : EndpointId) : b.queued peer = (b.queueOf peer).packets := by
  unfold queued queueOf
  cases b.byPeer.lookup peer <;> rfl

/-- The queues after one of them is replaced. -/
theorem queued_insert (queue : LazyDialQueue) (packets bytes : Nat) (other : EndpointId) :
    queued ⟨b.byPeer.insert peer queue, packets, bytes⟩ other =
      if peer = other then queue.packets else b.queued other := by
  unfold queued
  split
  · next same => rw [same, AList.lookup_insert, Option.map_some, Option.getD_some]
  · next differs => rw [AList.lookup_insert_ne (Ne.symm differs)]

/-- A packet that is kept goes to the end of its peer's queue; nothing else changes. -/
theorem push_queued (other : EndpointId) :
    (b.push peer packet).2.queued other =
      if (b.push peer packet).1 = true ∧ peer = other then b.queued other ++ [packet]
      else b.queued other := by
  have pushed := push_cases b peer packet
  generalize b.push peer packet = result at pushed
  cases pushed with
  | full => exact (if_neg fun all => Bool.false_ne_true all.1).symm
  | peerFull =>
    rw [if_neg fun all => Bool.false_ne_true all.1, queued_insert]
    split
    · next same => rw [← same, queued_eq]
    · rfl
  | kept =>
    rw [queued_insert]
    by_cases same : peer = other
    · rw [if_pos same, if_pos ⟨rfl, same⟩, ← same, queued_eq]
    · rw [if_neg same, if_neg fun all => same all.2]

/-- Every peer with a queue had one, or is the one pushed to. -/
theorem mem_push (found : other ∈ (b.push peer packet).2.byPeer) :
    other = peer ∨ other ∈ b.byPeer := by
  have pushed := push_cases b peer packet
  generalize b.push peer packet = result at pushed found
  cases pushed with
  | full => exact .inr found
  | peerFull | kept => exact (AList.mem_insert _).mp found

/-! ## Counters -/

/-- The counters are the sums over the packets, and within the budgets. -/
structure Counted (b : LazyDialBuffers) : Prop where
  packets : b.packets = HashMap.total (·.packets.length) b.byPeer
  bytes : b.bytes = HashMap.total (fun queue => byteCount queue.packets) b.byPeer
  queues : ∀ peer queue, b.byPeer.lookup peer = some queue →
    queue.bytes = byteCount queue.packets ∧ queue.packets.length ≤ maxPacketsPerPeer ∧
      queue.bytes ≤ maxBytesPerPeer
  packetsTotal : b.packets ≤ maxPacketsTotal
  bytesTotal : b.bytes ≤ maxBytesTotal

theorem byteCount_concat (packets : List Bytes) (packet : Bytes) :
    byteCount (packets ++ [packet]) = byteCount packets + packet.length := by
  rw [byteCount, List.map_append, List.sum_append]
  rfl

theorem Counted.queueOf (counted : b.Counted) (peer : EndpointId) :
    (b.queueOf peer).bytes = byteCount (b.queueOf peer).packets ∧
      (b.queueOf peer).packets.length ≤ maxPacketsPerPeer ∧
      (b.queueOf peer).bytes ≤ maxBytesPerPeer := by
  unfold LazyDialBuffers.queueOf
  cases found : b.byPeer.lookup peer with
  | none => exact ⟨rfl, Nat.zero_le _, Nat.zero_le _⟩
  | some queue => exact counted.queues peer queue found

/-- A sum over the queues, when the peer's queue is replaced. -/
theorem total_replaced (b : LazyDialBuffers) (peer : EndpointId) (f : LazyDialQueue → Nat)
    (base : f ⟨[], 0⟩ = 0) (queue : LazyDialQueue) :
    HashMap.total f (b.byPeer.insert peer queue) + f (b.queueOf peer) =
      HashMap.total f b.byPeer + f queue := by
  unfold queueOf
  rw [HashMap.total_insert, HashMap.total_erase f b.byPeer peer]
  cases b.byPeer.lookup peer with
  | none =>
    rw [Option.getD_none, Option.map_none, Option.getD_none]
    omega
  | some old =>
    rw [Option.getD_some, Option.map_some, Option.getD_some]
    omega

/-- What holds of each queue, when the peer's queue is replaced. -/
theorem queues_replaced {P : LazyDialQueue → Prop} {queue : LazyDialQueue}
    (queues : ∀ peer queue, b.byPeer.lookup peer = some queue → P queue) (own : P queue) :
    ∀ other found, (b.byPeer.insert peer queue).lookup other = some found → P found := by
  intro other found at_other
  by_cases same : other = peer
  · rw [same, AList.lookup_insert] at at_other
    exact Option.some.inj at_other ▸ own
  · rw [AList.lookup_insert_ne same] at at_other
    exact queues other found at_other

theorem Counted.push (counted : b.Counted) (peer : EndpointId) (packet : Bytes) :
    (b.push peer packet).2.Counted := by
  have pushed := push_cases b peer packet
  generalize b.push peer packet = result at pushed
  obtain ⟨own, few, small⟩ := counted.queueOf peer
  cases pushed with
  | full => exact counted
  | peerFull =>
    have packets := total_replaced b peer (·.packets.length) rfl (b.queueOf peer)
    have bytes := total_replaced b peer (fun queue => byteCount queue.packets) rfl (b.queueOf peer)
    exact { counted with
      packets := counted.packets.trans (Nat.add_right_cancel packets).symm
      bytes := counted.bytes.trans (Nat.add_right_cancel bytes).symm
      queues := queues_replaced counted.queues ⟨own, few, small⟩ }
  | kept room roomBytes peerRoom peerBytes =>
    have packets := total_replaced b peer (·.packets.length) rfl
      ⟨(b.queueOf peer).packets ++ [packet], (b.queueOf peer).bytes + packet.length⟩
    have bytes := total_replaced b peer (fun queue => byteCount queue.packets) rfl
      ⟨(b.queueOf peer).packets ++ [packet], (b.queueOf peer).bytes + packet.length⟩
    rw [← counted.packets, List.length_append, List.length_singleton] at packets
    rw [← counted.bytes, byteCount_concat] at bytes
    refine ⟨by dsimp only; omega, by dsimp only; omega,
      queues_replaced counted.queues ⟨?_, ?_, peerBytes⟩, room, roomBytes⟩
    · rw [byteCount_concat, own]
    · rw [List.length_append]
      exact peerRoom

theorem Counted.take (counted : b.Counted) (peer : EndpointId) : (b.take peer).2.Counted := by
  unfold LazyDialBuffers.take
  cases found : b.byPeer.lookup peer with
  | none => exact counted
  | some queue =>
    obtain ⟨own, -⟩ := counted.queues peer queue found
    have packets := HashMap.total_erase (·.packets.length) b.byPeer peer
    have bytes := HashMap.total_erase (fun queue => byteCount queue.packets) b.byPeer peer
    rw [← counted.packets, found, Option.map_some, Option.getD_some] at packets
    rw [← counted.bytes, found, Option.map_some, Option.getD_some] at bytes
    refine ⟨by dsimp only; omega, by dsimp only; omega, fun other queue' at_other => ?_, ?_, ?_⟩
    · have differs : other ≠ peer := by
        rintro rfl
        rw [AList.lookup_erase] at at_other
        cases at_other
      rw [AList.lookup_erase_ne differs] at at_other
      exact counted.queues other queue' at_other
    · exact (Nat.sub_le _ _).trans counted.packetsTotal
    · exact (Nat.sub_le _ _).trans counted.bytesTotal

theorem take_queued (peer : EndpointId) :
    (b.take peer).1 = b.queued peer ∧ ∀ other, (b.take peer).2.queued other =
      if peer = other then [] else b.queued other := by
  unfold take queued
  cases found : b.byPeer.lookup peer with
  | none =>
    refine ⟨rfl, fun other => ?_⟩
    dsimp only
    split
    · next same => rw [← same, found, Option.map_none, Option.getD_none]
    · rfl
  | some queue =>
    refine ⟨rfl, fun other => ?_⟩
    dsimp only
    split
    · next same => rw [same, AList.lookup_erase, Option.map_none, Option.getD_none]
    · next differs => rw [AList.lookup_erase_ne (Ne.symm differs)]

theorem mem_take (found : other ∈ (b.take peer).2.byPeer) : other ≠ peer ∧ other ∈ b.byPeer := by
  unfold take at found
  cases at_peer : b.byPeer.lookup peer with
  | none =>
    rw [at_peer] at found
    refine ⟨?_, found⟩
    rintro rfl
    exact AList.lookup_eq_none.mp at_peer found
  | some queue =>
    rw [at_peer] at found
    exact AList.mem_erase.mp found

end LazyDialBuffers

/-! ## Every run of the loop -/

/-- The peers with a dial in flight, each once: it has not ended, or its completion has not
been received. -/
def PendingDials.dials (s : PendingDials) : List EndpointId := s.dialing ++ s.completed.map Prod.fst

/-- What holds between two steps of the loop. -/
structure PendingDials.Bounded (s : PendingDials) : Prop where
  counted : s.buffered.Counted
  inFlight : s.inFlight = s.dials.toFinset
  single : s.dials.Nodup
  few : s.inFlight.card ≤ maxInFlight
  dialed : ∀ peer ∈ s.buffered.byPeer, peer ∈ s.inFlight

theorem PendingDials.bounded_new : PendingDials.new.Bounded where
  counted := ⟨rfl, rfl, nofun, Nat.zero_le _, Nat.zero_le _⟩
  inFlight := rfl
  single := .nil
  few := Nat.zero_le _
  dialed peer found := absurd found (AList.notMem_empty peer)

/-- Everything a step of the loop can do. -/
inductive Dialed (s : PendingDials) : DialAct → DialOut → PendingDials → Prop where
  | refused : Dialed s (.packet peer packet) .tooManyDials s
  | waits : peer ∈ s.inFlight →
      Dialed s (.packet peer packet) (.queued (s.buffered.push peer packet).1)
        { s with buffered := (s.buffered.push peer packet).2 }
  | spawns : peer ∉ s.inFlight →
      s.inFlight.card < maxInFlight →
      Dialed s (.packet peer packet) (.queued (s.buffered.push peer packet).1)
        { s with
          buffered := (s.buffered.push peer packet).2
          inFlight := insert peer s.inFlight
          dialing := s.dialing ++ [peer] }
  | ended : peer ∈ s.dialing →
      Dialed s (.dialed peer connected) .reported
        { s with
          dialing := s.dialing.erase peer
          completed := s.completed ++ [(peer, connected)] }
  | received :
      s.completed = (peer, connected) :: rest →
      Dialed s .receive (.taken peer connected (s.buffered.queued peer))
        { s with
          buffered := (s.buffered.take peer).2
          inFlight := s.inFlight.erase peer
          completed := rest }

variable {s s' : PendingDials} {a : DialAct}

theorem dialStep_cases (step : dialStep s a out s') : Dialed s a out s' := by
  unfold dialStep at step
  cases a with
  | packet peer packet =>
    have ran : s.packet peer packet = (out, s') := Option.some.inj step
    unfold PendingDials.packet at ran
    split at ran
    · cases ran
      exact .refused
    next allowed =>
    dsimp only at ran
    split at ran
    · next present =>
      cases ran
      exact .waits present
    · next absent =>
      cases ran
      exact .spawns absent (Nat.not_le.mp fun full => allowed ⟨absent, full⟩)
  | dialed peer connected =>
    unfold PendingDials.step at step
    dsimp only at step
    split at step
    · next running =>
      cases step
      exact .ended running
    · cases step
  | receive =>
    unfold PendingDials.step at step
    dsimp only at step
    split at step
    · cases step
    next peer connected rest completed =>
    cases step
    rw [(LazyDialBuffers.take_queued peer).1]
    exact .received completed

theorem PendingDials.Bounded.step (bounded : s.Bounded) (step : dialStep s a out s') :
    s'.Bounded := by
  cases dialStep_cases step with
  | refused => exact bounded
  | @waits peer packet present =>
    refine { bounded with counted := bounded.counted.push peer packet, dialed := ?_ }
    intro other found
    rcases LazyDialBuffers.mem_push found with rfl | earlier
    · exact present
    · exact bounded.dialed other earlier
  | @spawns peer packet absent room =>
    have grown : PendingDials.dials { s with
        buffered := (s.buffered.push peer packet).2
        inFlight := insert peer s.inFlight
        dialing := s.dialing ++ [peer] } |>.Perm (peer :: s.dials) := by
      unfold PendingDials.dials
      rw [List.append_assoc]
      exact List.perm_middle
    refine ⟨bounded.counted.push peer packet, ?_, ?_, ?_, ?_⟩
    · rw [List.toFinset_eq_of_perm _ _ grown, List.toFinset_cons, ← bounded.inFlight]
    · rw [grown.nodup_iff, List.nodup_cons]
      refine ⟨fun member => absent ?_, bounded.single⟩
      rwa [bounded.inFlight, List.mem_toFinset]
    · exact (Finset.card_insert_le _ _).trans room
    · intro other found
      rcases LazyDialBuffers.mem_push found with rfl | earlier
      · exact Finset.mem_insert_self _ _
      · exact Finset.mem_insert_of_mem (bounded.dialed other earlier)
  | @ended peer connected running =>
    have same : PendingDials.dials { s with
        dialing := s.dialing.erase peer
        completed := s.completed ++ [(peer, connected)] } |>.Perm s.dials := by
      unfold PendingDials.dials
      rw [List.map_append, ← List.append_assoc]
      refine (List.perm_append_singleton _ _).trans ?_
      exact (List.perm_cons_erase running).symm.append_right _
    refine { bounded with inFlight := ?_, single := same.nodup_iff.mpr bounded.single }
    exact bounded.inFlight.trans (List.toFinset_eq_of_perm _ _ same.symm)
  | @received peer connected rest completed =>
    have shrunk : s.dials.Perm (peer :: PendingDials.dials { s with
        completed := rest }) := by
      unfold PendingDials.dials
      rw [completed]
      exact List.perm_middle
    obtain ⟨absent, single⟩ := List.nodup_cons.mp (shrunk.nodup_iff.mp bounded.single)
    refine ⟨bounded.counted.take peer, ?_, single, ?_, ?_⟩
    · rw [bounded.inFlight, List.toFinset_eq_of_perm _ _ shrunk, List.toFinset_cons]
      exact Finset.erase_insert (by rwa [List.mem_toFinset])
    · exact (Finset.card_erase_le).trans bounded.few
    · intro other found
      obtain ⟨differs, earlier⟩ := LazyDialBuffers.mem_take found
      exact Finset.mem_erase.mpr ⟨differs, bounded.dialed other earlier⟩

/-- The queues hold the packets that wait. -/
theorem queued_step (step : dialStep s a out s') (peer : EndpointId) :
    s'.buffered.queued peer = kept peer (s.buffered.queued peer) a out := by
  have pushed {other : EndpointId} {packet : Bytes} :
      (s.buffered.push other packet).2.queued peer = kept peer (s.buffered.queued peer)
        (.packet other packet) (.queued (s.buffered.push other packet).1) := by
    rw [LazyDialBuffers.push_queued]
    cases (s.buffered.push other packet).1 with
    | false => exact if_neg fun all => Bool.false_ne_true all.1
    | true => exact if_congr (and_iff_right rfl) rfl rfl
  cases dialStep_cases step with
  | refused | ended _ => rfl
  | waits _ | spawns _ _ => exact pushed
  | received _ => exact (LazyDialBuffers.take_queued _).2 peer

theorem taken_queued (step : dialStep s a (.taken peer connected packets) s') :
    packets = s.buffered.queued peer := by
  cases dialStep_cases step
  rfl

theorem queued_run (run : Run dialStep .new h s) (peer : EndpointId) :
    s.buffered.queued peer = waiting peer h := by
  induction run with
  | nil => rfl
  | @snoc h s s' a out run step ih =>
    rw [waiting, List.foldl_append, queued_step step, ih]
    rfl

/-- **Every run of the loop is within its budgets.** The counters are the sums over the
packets kept, no more than `maxInFlight` dials are in flight, at most one to a peer, every
peer with packets kept has one, and a completion takes the packets that wait for its peer, in
the order they came. -/
theorem lazy_dial_bounded {h : List DialEntry} {s : PendingDials} (run : Run dialStep .new h s) :
    s.Bounded ∧ (∀ peer, s.buffered.queued peer = waiting peer h) ∧
      ∀ pre e post, h = pre ++ e :: post → ∀ peer connected packets,
        e.out = .taken peer connected packets → packets = waiting peer pre := by
  refine ⟨?_, queued_run run, fun pre e post parts peer connected packets taken => ?_⟩
  · exact run.preserves PendingDials.bounded_new fun step bounded => bounded.step step
  · obtain ⟨reached, step, -⟩ := run.split parts
    rw [taken] at step
    exact (taken_queued step).trans (queued_run reached peer)

def twoPacketActs : List DialAct :=
  [.packet 1 [1], .packet 2 [9], .packet 1 [2], .dialed 1 true, .receive]

def twoPackets : List DialEntry × PendingDials := executed PendingDials.step .new twoPacketActs

/-- Two packets wait for one peer and one for another; the first dial takes its two. -/
theorem lazy_dial_two_packets :
    twoPackets.2.Bounded ∧ twoPackets.2.buffered.queued 2 = [[9]] ∧
      twoPackets.1.getLast?.map (·.out) = some (.taken 1 true [[1], [2]]) := by
  have run : Run dialStep .new twoPackets.1 twoPackets.2 :=
    run_executed twoPacketActs (by decide +kernel)
  obtain ⟨bounded, queued, -⟩ := lazy_dial_bounded run
  exact ⟨bounded, (queued 2).trans (by decide +kernel), by decide +kernel⟩

end Rayfish
