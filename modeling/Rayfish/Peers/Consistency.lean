import Rayfish.Peers.Attribution

/-!
# Consistency of the peer table

The whole table of `peers.rs`, keyed by the address a peer's identity derives, under any
sequence of its operations. An entry is where its identity's address says, and is there exactly
while it shares a network; a datagram resolves only to a network that is shared. The handles of
an entry are nonzero and pairwise different exactly if no network is added to an entry that
has all 65535 handles in use: `next_free_handle` then answers the last one
(`peer_table_consistent`).
-/

namespace Rayfish

open Lib

structure PeerTable where
  peers : HashMap Ipv6Addr PeerEntry
  closed : Finset Connection

namespace PeerTable

def empty : PeerTable := ⟨∅, ∅⟩

variable (t : PeerTable) (ip : Ipv6Addr) (conn : Connection)

def slot : PeerSlot := ⟨t.peers.lookup ip, t.closed⟩

def setSlot (s : PeerSlot) : PeerTable :=
  { peers :=
      match s.entry with
      | some e => t.peers.insert ip e
      | none => t.peers.erase ip
    closed := s.closed }

def add (id : EndpointId) (network : Name) : Bool × PeerTable :=
  let (changed, s) := (t.slot ip).add conn id network
  (changed, t.setSlot ip s)

variable (network : Name)

def attachNetwork : Option Handle × PeerTable :=
  let (handle, s) := (t.slot ip).attachNetwork network
  (handle, t.setSlot ip s)

def remove : PeerTable := { t with peers := t.peers.erase ip }

def removeConnection (stableId : Option Nat) : Option (List Name) × PeerTable :=
  let (networks, s) := (t.slot ip).removeConnection stableId
  (networks, t.setSlot ip s)

def removePeerFromNetwork : Option Connection × PeerTable :=
  let (conn, s) := (t.slot ip).removePeerFromNetwork network
  (conn, t.setSlot ip s)

/-- The entries one after another; the ones left without a network are answered. -/
def removeByNetwork : List (Ipv6Addr × Connection) × PeerTable :=
  t.peers.keys.foldl (fun (removed, t) ip =>
    let (conn, t) := t.removePeerFromNetwork ip network
    (removed ++ (conn.toList.map fun conn => (ip, conn)), t)) ([], t)

def setInboundHandles (entries : List (Handle × Name)) : PeerTable :=
  t.setSlot ip ((t.slot ip).setInboundHandles conn entries)

def addInboundHandle (handle : Handle) (network : Name) : PeerTable :=
  t.setSlot ip ((t.slot ip).addInboundHandle conn handle network)

def resolveInbound (handle : Handle) : Option Name :=
  (t.slot ip).resolveInbound conn handle

def sharesNetwork : Bool :=
  (t.peers.lookup ip).any fun e => network ∈ e.outHandles

end PeerTable

/-- The operations. A connection can close at any time. -/
inductive PeerTableAct where
  | register (conn : Connection) (id : EndpointId) (network : Name)
  | attachNetwork (ip : Ipv6Addr) (network : Name)
  | remove (ip : Ipv6Addr)
  | removeConnection (ip : Ipv6Addr) (stableId : Option Nat)
  | removePeerFromNetwork (ip : Ipv6Addr) (network : Name)
  | removeByNetwork (network : Name)
  | setInboundHandles (ip : Ipv6Addr) (conn : Connection) (entries : List (Handle × Name))
  | addInboundHandle (id : EndpointId) (conn : Connection) (handle : Handle) (network : Name)
  | closes (conn : Connection)

section

variable (derive : EndpointId → Ipv6Addr)

/-- `derive` is `derive_ipv6`: registrations are for the address of the identity. -/
def PeerTable.step (t : PeerTable) : PeerTableAct → PeerTable
  | .register conn id network => (t.add (derive id) conn id network).2
  | .attachNetwork ip network => (t.attachNetwork ip network).2
  | .remove ip => t.remove ip
  | .removeConnection ip stableId => (t.removeConnection ip stableId).2
  | .removePeerFromNetwork ip network => (t.removePeerFromNetwork ip network).2
  | .removeByNetwork network => (t.removeByNetwork network).2
  | .setInboundHandles ip conn entries => t.setInboundHandles ip conn entries
  | .addInboundHandle id conn handle network => t.addInboundHandle (derive id) conn handle network
  | .closes conn => { t with closed := insert conn t.closed }

def peerTableStep : StepRel PeerTable PeerTableAct Unit := fun t a _ t' => t' = t.step derive a

end

abbrev PeerTableEntry := Entry PeerTable PeerTableAct Unit

/-! ## Handles -/

/-- Nonzero handles, one for each network. -/
structure Tagged (used : HashMap Name Handle) : Prop where
  inRange : ∀ network handle, used.lookup network = some handle → 1 ≤ handle ∧ handle ≤ 65535
  distinct : ∀ network network' handle, used.lookup network = some handle →
    used.lookup network' = some handle → network = network'

section

variable {used : HashMap Name Handle} {network : Name}

theorem nextFreeHandle_range (used : HashMap Name Handle) :
    1 ≤ nextFreeHandle used ∧ nextFreeHandle used ≤ 65535 := by
  unfold nextFreeHandle
  generalize found : (List.range' 1 65535).find? _ = result
  cases result with
  | none => exact ⟨by decide, le_rfl⟩
  | some handle =>
    have member := List.mem_range'_1.mp (List.mem_of_find?_eq_some found)
    exact ⟨member.1, Nat.le_of_lt_succ (by rw [Nat.add_comm] at member; exact member.2)⟩

/-- While a handle is free, a free one is found. -/
theorem nextFreeHandle_free (room : used.size < 65535) : ¬Taken used (nextFreeHandle used) := by
  unfold nextFreeHandle
  generalize found : (List.range' 1 65535).find? _ = result
  cases result with
  | none =>
    -- every handle would be taken, by as many networks
    have taken : List.range' 1 65535 ⊆ used.entries.map fun e => e.2 := by
      intro handle member
      have := List.find?_eq_none.mp found handle member
      rw [all_ne_iff_not_taken, not_not] at this
      obtain ⟨network, held⟩ := this
      exact List.mem_map.mpr ⟨⟨network, handle⟩, AList.mem_lookup_iff.mp held, rfl⟩
    have le := (List.subperm_of_subset List.nodup_range' taken).length_le
    rw [List.length_range', List.length_map] at le
    exact absurd room (Nat.not_lt.mpr le)
  | some handle =>
    have free := List.find?_some found
    exact all_ne_iff_not_taken.mp free

/-- Once as many networks have handles as there are handles, all are taken. -/
theorem taken_of_full (tagged : Tagged used) (full : 65535 ≤ used.size)
    (range : 1 ≤ handle ∧ handle ≤ 65535) : Taken used handle := by
  have nodup : (used.entries.map fun e => e.2).Nodup := by
    refine List.Nodup.map_on (fun x member y member' same => ?_) used.nodupKeys.nodup
    have key := tagged.distinct x.1 y.1 x.2 (AList.mem_lookup_iff.mpr member)
      (AList.mem_lookup_iff.mpr (same ▸ member'))
    exact Sigma.ext key (heq_of_eq same)
  have within : (used.entries.map fun e => e.2) ⊆ List.range' 1 65535 := by
    intro handle member
    obtain ⟨e, at_e, rfl⟩ := List.mem_map.mp member
    have bounds := tagged.inRange e.1 e.2 (AList.mem_lookup_iff.mpr at_e)
    exact List.mem_range'_1.mpr ⟨bounds.1, Nat.lt_succ_of_le bounds.2⟩
  have all := (List.subperm_of_subset nodup within).perm_of_length_le (by
    rw [List.length_range', List.length_map]
    exact full)
  have member := all.mem_iff.mpr (List.mem_range'_1.mpr ⟨range.1, Nat.lt_succ_of_le range.2⟩)
  obtain ⟨e, at_e, rfl⟩ := List.mem_map.mp member
  exact ⟨e.1, AList.mem_lookup_iff.mpr at_e⟩

theorem tagged_insert_iff (tagged : Tagged used) (fresh : network ∉ used) :
    Tagged (used.insert network (nextFreeHandle used)) ↔ used.size < 65535 := by
  have absent := AList.lookup_eq_none.mpr fresh
  constructor
  · intro after
    by_contra full
    obtain ⟨other, held⟩ := taken_of_full tagged (Nat.not_lt.mp full) (nextFreeHandle_range used)
    have differs : other ≠ network := by
      rintro rfl
      rw [absent] at held
      cases held
    refine differs
      (after.distinct other network (nextFreeHandle used) ?_ (AList.lookup_insert used))
    rwa [AList.lookup_insert_ne differs]
  · intro room
    have free := nextFreeHandle_free room
    refine ⟨fun other handle held => ?_, fun one two handle held held' => ?_⟩
    · by_cases same : other = network
      · rw [same, AList.lookup_insert] at held
        exact Option.some.inj held ▸ nextFreeHandle_range used
      · rw [AList.lookup_insert_ne same] at held
        exact tagged.inRange other handle held
    · by_cases first : one = network <;> by_cases second : two = network
      · rw [first, second]
      · rw [first, AList.lookup_insert] at held
        rw [AList.lookup_insert_ne second, ← Option.some.inj held] at held'
        exact absurd ⟨two, held'⟩ free
      · rw [second, AList.lookup_insert] at held'
        rw [AList.lookup_insert_ne first, ← Option.some.inj held'] at held
        exact absurd ⟨one, held⟩ free
      · rw [AList.lookup_insert_ne first] at held
        rw [AList.lookup_insert_ne second] at held'
        exact tagged.distinct one two handle held held'

/-- A network without a handle, and no handle left. -/
def Exhausted (used : HashMap Name Handle) (network : Name) : Prop :=
  network ∉ used ∧ 65535 ≤ used.size

theorem tagged_assignHandle_iff (tagged : Tagged used) :
    Tagged (assignHandle used network) ↔ ¬Exhausted used network := by
  unfold assignHandle
  split
  · next present => exact iff_of_true tagged fun exhausted => exhausted.1 present
  · next fresh =>
    rw [tagged_insert_iff tagged fresh, Exhausted, not_and, Nat.not_le]
    exact ⟨fun room _ => room, fun room => room fresh⟩

/-- Handles that were there before. -/
theorem Tagged.mono (tagged : Tagged used)
    (before : ∀ network handle, fewer.lookup network = some handle →
      used.lookup network = some handle) : Tagged fewer where
  inRange network handle held := tagged.inRange network handle (before network handle held)
  distinct one two handle held held' :=
    tagged.distinct one two handle (before one handle held) (before two handle held')

theorem tagged_empty : Tagged ∅ := ⟨nofun, nofun⟩

theorem mem_assignHandle (used : HashMap Name Handle) (network : Name) :
    network ∈ assignHandle used network := by
  unfold assignHandle
  split
  · next present => exact present
  · exact (AList.mem_insert _).mpr (.inl rfl)

end

/-! ## One slot -/

namespace PeerSlot

variable {s : PeerSlot} {conn : Connection} {id : EndpointId} {network : Name} {e' : PeerEntry}

theorem attachNetwork_entry (at_entry : (s.attachNetwork network).2.entry = some e') :
    ∃ e, s.entry = some e ∧ e'.endpointId = e.endpointId ∧
      e'.outHandles = assignHandle e.outHandles network := by
  unfold attachNetwork at at_entry
  split at at_entry
  · next e held =>
    split at at_entry
    · next present =>
      obtain rfl := Option.some.inj (held.symm.trans at_entry)
      exact ⟨e, held, rfl, (if_pos present).symm⟩
    · next fresh =>
      cases at_entry
      exact ⟨e, held, rfl, (if_neg fresh).symm⟩
  · next vacant =>
    rw [vacant] at at_entry
    cases at_entry

theorem removeConnection_entry (at_entry : (s.removeConnection stableId).2.entry = some e') :
    s.entry = some e' := by
  unfold removeConnection at at_entry
  split at at_entry
  · split at at_entry
    · cases at_entry
    · exact at_entry
  · exact at_entry

theorem removePeerFromNetwork_entry
    (at_entry : (s.removePeerFromNetwork network).2.entry = some e') :
    ∃ e, s.entry = some e ∧ e'.endpointId = e.endpointId ∧ ∃ other, other ∈ e'.outHandles := by
  unfold removePeerFromNetwork at at_entry
  split at at_entry
  · next e held =>
    dsimp only at at_entry
    split at at_entry
    · cases at_entry
    next some_left =>
    cases at_entry
    refine ⟨e, held, rfl, ?_⟩
    rw [List.isEmpty_iff] at some_left
    obtain ⟨entry, member⟩ := List.exists_mem_of_ne_nil _ some_left
    exact ⟨entry.1, List.mem_map_of_mem member⟩
  · next vacant =>
    rw [vacant] at at_entry
    cases at_entry

theorem updateCurrent_entry
    (keeps : ∀ e, (f e).endpointId = e.endpointId ∧ (f e).outHandles = e.outHandles)
    (at_entry : (s.updateCurrent conn f).entry = some e') :
    ∃ e, s.entry = some e ∧ e'.endpointId = e.endpointId ∧ e'.outHandles = e.outHandles := by
  obtain ⟨e, held, rfl⟩ := Option.map_eq_some_iff.mp at_entry
  refine ⟨e, held, ?_⟩
  split
  · exact keeps e
  · exact ⟨rfl, rfl⟩

/-- The handles in use after a registration. -/
theorem used_add : (s.add conn id network).2.used =
    if conn ∈ s.closed then s.used else assignHandle s.used network := by
  cases at_entry : (s.add conn id network).2.entry with
  | none =>
    unfold add at at_entry ⊢
    split at at_entry
    · next isClosed => rw [if_pos isClosed, if_pos isClosed]
    · split at at_entry <;> cases at_entry
  | some e' =>
    have used : (s.add conn id network).2.used = e'.outHandles := by
      rw [PeerSlot.used, at_entry]; rfl
    rw [used]
    rcases add_entry at_entry with ⟨isClosed, held⟩ | ⟨isOpen, -, table⟩
    · rw [if_pos isClosed, PeerSlot.used, held, Option.elim_some]
    · rw [if_neg isOpen, table]

theorem used_attachNetwork : (s.attachNetwork network).2.used =
    if s.entry.isSome then assignHandle s.used network else s.used := by
  unfold attachNetwork
  cases held : s.entry with
  | none => rfl
  | some e =>
    have own : s.used = e.outHandles := by rw [used, held, Option.elim_some]
    rw [own]
    dsimp only
    by_cases present : network ∈ e.outHandles
    · rw [if_pos present, own, assignHandle, if_pos present, ite_self]
    · rw [if_neg present, assignHandle, if_neg present]
      rfl

theorem isSome_of_used (network : Name) (member : network ∈ s.used) : s.entry.isSome = true := by
  unfold used at member
  cases held : s.entry with
  | none =>
    rw [held] at member
    exact absurd member (AList.notMem_empty network)
  | some e => rfl

theorem used_removePeerFromNetwork
    (held : (s.removePeerFromNetwork network).2.used.lookup other = some handle) :
    s.used.lookup other = some handle := by
  rw [lookup_used] at held ⊢
  exact outHandle_removePeerFromNetwork held

theorem used_removeConnection
    (held : (s.removeConnection stableId).2.used.lookup other = some handle) :
    s.used.lookup other = some handle := by
  cases at_entry : (s.removeConnection stableId).2.entry with
  | none =>
    rw [used, at_entry] at held
    cases held
  | some e =>
    rw [used, at_entry] at held
    rwa [used, removeConnection_entry at_entry]

theorem used_updateCurrent
    (keeps : ∀ e, (f e).endpointId = e.endpointId ∧ (f e).outHandles = e.outHandles) :
    (s.updateCurrent conn f).used = s.used := by
  unfold updateCurrent used
  cases s.entry with
  | none => rfl
  | some e =>
    rw [Option.map_some, Option.elim_some, Option.elim_some]
    split
    · exact (keeps e).2
    · rfl

end PeerSlot

/-! ## The whole table -/

namespace PeerTable

variable {t : PeerTable} {ip : Ipv6Addr} {s : PeerSlot} {network : Name} (other : Ipv6Addr)

/-- What holds of every entry, at its address. -/
def Every (P : Ipv6Addr → PeerEntry → Prop) (t : PeerTable) : Prop :=
  ∀ ip e, t.peers.lookup ip = some e → P ip e

theorem lookup_setSlot :
    (t.setSlot ip s).peers.lookup other = if other = ip then s.entry else t.peers.lookup other := by
  unfold setSlot
  by_cases same : other = ip
  · rw [if_pos same, same]
    cases s.entry with
    | none => exact AList.lookup_erase _ _
    | some e => exact AList.lookup_insert _
  · rw [if_neg same]
    cases s.entry with
    | none => exact AList.lookup_erase_ne same
    | some e => exact AList.lookup_insert_ne same

theorem Every.setSlot (every : t.Every P) (own : ∀ e, s.entry = some e → P ip e) :
    (t.setSlot ip s).Every P := by
  intro other e at_other
  rw [lookup_setSlot] at at_other
  split at at_other
  · next same => exact same ▸ own e at_other
  · exact every other e at_other

theorem used_setSlot : ((t.setSlot ip s).slot other).used =
    if other = ip then s.used else (t.slot other).used := by
  unfold PeerSlot.used slot
  rw [lookup_setSlot]
  split <;> rfl

/-- What `remove_peer_from_network` keeps, `remove_by_network` keeps. -/
theorem removeByNetwork_induct {P : PeerTable → Prop} (start : P t)
    (keeps : ∀ t ip, P t → P (t.removePeerFromNetwork ip network).2) :
    P (t.removeByNetwork network).2 := by
  unfold removeByNetwork
  generalize ([] : List (Ipv6Addr × Connection)) = removed
  induction t.peers.keys generalizing t removed with
  | nil => exact start
  | cons ip rest ih => exact ih (keeps t ip start) _

variable (derive : EndpointId → Ipv6Addr)

/-- The entry stands where its identity's address says, and shares a network. -/
def Placed (t : PeerTable) : Prop :=
  t.Every fun ip e => derive e.endpointId = ip ∧ ∃ network, network ∈ e.outHandles

def AllTagged (t : PeerTable) : Prop := ∀ ip, Tagged (t.slot ip).used

/-- A network is added to an entry that has no handle left. -/
def Exhausts (t : PeerTable) : PeerTableAct → Prop
  | .register conn id network => conn ∉ t.closed ∧ Exhausted (t.slot (derive id)).used network
  | .attachNetwork ip network => Exhausted (t.slot ip).used network
  | _ => False

variable {derive}

theorem Placed.step (placed : t.Placed derive) (a : PeerTableAct) :
    (t.step derive a).Placed derive := by
  have removes (t : PeerTable) (ip : Ipv6Addr) (network : Name) (placed : t.Placed derive) :
      (t.removePeerFromNetwork ip network).2.Placed derive := by
    refine Every.setSlot placed fun e' at_entry => ?_
    obtain ⟨e, held, same, left⟩ := PeerSlot.removePeerFromNetwork_entry at_entry
    exact ⟨same ▸ (placed ip e held).1, left⟩
  have decodes (ip : Ipv6Addr) (conn : Connection) (f : PeerEntry → PeerEntry)
      (keeps : ∀ e, (f e).endpointId = e.endpointId ∧ (f e).outHandles = e.outHandles) :
      (t.setSlot ip ((t.slot ip).updateCurrent conn f)).Placed derive := by
    refine Every.setSlot placed fun e' at_entry => ?_
    obtain ⟨e, held, same, table⟩ := PeerSlot.updateCurrent_entry keeps at_entry
    rw [same, table]
    exact placed ip e held
  cases a with
  | register conn id network =>
    refine Every.setSlot placed fun e' at_entry => ?_
    rcases PeerSlot.add_entry at_entry with ⟨-, held⟩ | ⟨-, rfl, table⟩
    · exact placed _ e' held
    · exact ⟨rfl, network, table ▸ mem_assignHandle _ network⟩
  | attachNetwork ip network =>
    refine Every.setSlot placed fun e' at_entry => ?_
    obtain ⟨e, held, same, table⟩ := PeerSlot.attachNetwork_entry at_entry
    exact ⟨same ▸ (placed ip e held).1, network, table ▸ mem_assignHandle _ network⟩
  | remove ip =>
    have cleared : (t.setSlot ip ⟨none, t.closed⟩).Placed derive := Every.setSlot placed nofun
    exact cleared
  | removeConnection ip stableId =>
    exact Every.setSlot placed fun e' at_entry =>
      placed ip e' (PeerSlot.removeConnection_entry at_entry)
  | removePeerFromNetwork ip network => exact removes t ip network placed
  | removeByNetwork network =>
    exact removeByNetwork_induct placed fun t ip => removes t ip network
  | setInboundHandles ip conn entries => exact decodes ip conn _ fun _ => ⟨rfl, rfl⟩
  | addInboundHandle id conn handle network => exact decodes _ conn _ fun _ => ⟨rfl, rfl⟩
  | closes conn => exact placed

theorem AllTagged.setSlot_iff (tagged : t.AllTagged) :
    (t.setSlot ip s).AllTagged ↔ Tagged s.used := by
  constructor
  · intro after
    have own := after ip
    rwa [used_setSlot, if_pos rfl] at own
  · intro own other
    rw [used_setSlot]
    split
    · exact own
    · exact tagged other

theorem not_exhausted_empty (network : Name) : ¬Exhausted ∅ network := fun full =>
  absurd full.2 (by decide)

theorem AllTagged.step_iff (tagged : t.AllTagged) (a : PeerTableAct) :
    (t.step derive a).AllTagged ↔ ¬t.Exhausts derive a := by
  have removes (t : PeerTable) (ip : Ipv6Addr) (network : Name) (tagged : t.AllTagged) :
      (t.removePeerFromNetwork ip network).2.AllTagged :=
    tagged.setSlot_iff.mpr ((tagged ip).mono fun _ _ => PeerSlot.used_removePeerFromNetwork)
  have decodes (ip : Ipv6Addr) (conn : Connection) (f : PeerEntry → PeerEntry)
      (keeps : ∀ e, (f e).endpointId = e.endpointId ∧ (f e).outHandles = e.outHandles) :
      (t.setSlot ip ((t.slot ip).updateCurrent conn f)).AllTagged := by
    rw [tagged.setSlot_iff, PeerSlot.used_updateCurrent keeps]
    exact tagged ip
  cases a with
  | register conn id network =>
    have at_slot : t.step derive (.register conn id network) =
      t.setSlot (derive id) ((t.slot (derive id)).add conn id network).2 := rfl
    rw [at_slot, tagged.setSlot_iff, PeerSlot.used_add]
    split
    · next isClosed => exact iff_of_true (tagged _) fun exhausts => exhausts.1 isClosed
    · next isOpen =>
      rw [tagged_assignHandle_iff (tagged _)]
      exact not_congr (and_iff_right isOpen).symm
  | attachNetwork ip network =>
    have at_slot : t.step derive (.attachNetwork ip network) =
      t.setSlot ip ((t.slot ip).attachNetwork network).2 := rfl
    rw [at_slot, tagged.setSlot_iff, PeerSlot.used_attachNetwork]
    split
    · exact tagged_assignHandle_iff (tagged _)
    next vacant =>
    refine iff_of_true (tagged ip) fun exhausts => not_exhausted_empty network ?_
    have none_used : (t.slot ip).used = ∅ := by
      rw [PeerSlot.used, Option.not_isSome_iff_eq_none.mp vacant, Option.elim_none]
    exact none_used ▸ exhausts
  | remove ip =>
    have cleared : (t.setSlot ip ⟨none, t.closed⟩).AllTagged := tagged.setSlot_iff.mpr tagged_empty
    exact iff_of_true cleared id
  | removeConnection ip stableId =>
    exact iff_of_true (tagged.setSlot_iff.mpr
      ((tagged ip).mono fun _ _ => PeerSlot.used_removeConnection)) id
  | removePeerFromNetwork ip network => exact iff_of_true (removes t ip network tagged) id
  | removeByNetwork network =>
    exact iff_of_true (removeByNetwork_induct tagged fun t ip => removes t ip network) id
  | setInboundHandles ip conn entries =>
    exact iff_of_true (decodes ip conn _ fun _ => ⟨rfl, rfl⟩) id
  | addInboundHandle id conn handle network =>
    exact iff_of_true (decodes _ conn _ fun _ => ⟨rfl, rfl⟩) (·)
  | closes conn => exact iff_of_true tagged id

/-! ## Every sequence of operations -/

variable {h : List PeerTableEntry}

theorem placed_run (run : Run (peerTableStep derive) .empty h t) : t.Placed derive :=
  run.preserves nofun fun step placed => step ▸ placed.step _

theorem allTagged_empty : PeerTable.empty.AllTagged := fun _ => tagged_empty

theorem Placed.isSome_iff (placed : t.Placed derive) (ip : Ipv6Addr) :
    (t.peers.lookup ip).isSome = true ↔ ∃ network, t.sharesNetwork ip network = true := by
  unfold sharesNetwork
  cases held : t.peers.lookup ip with
  | none => exact iff_of_false nofun fun ⟨_, shared⟩ => nomatch shared
  | some e =>
    obtain ⟨network, member⟩ := (placed ip e held).2
    exact iff_of_true rfl ⟨network, decide_eq_true member⟩

theorem sharesNetwork_of_resolveInbound
    (resolved : t.resolveInbound ip conn handle = some network) :
    t.sharesNetwork ip network = true := by
  obtain ⟨e, held, found⟩ := Option.bind_eq_some_iff.mp resolved
  have at_ip : t.peers.lookup ip = some e := held
  unfold sharesNetwork
  rw [at_ip]
  split at found
  · exact (Option.filter_eq_some_iff.mp found).2
  · cases found

end PeerTable

/-- **The peer table is consistent** after every sequence of operations: entries stand at the
addresses of their identities and exactly where a network is shared, and datagrams resolve to
shared networks. The handles of each entry are nonzero and pairwise different after every
operation exactly if none adds a network to an entry without a handle left. -/
theorem peer_table_consistent {derive : EndpointId → Ipv6Addr} {h : List PeerTableEntry}
    {t : PeerTable} (run : Run (peerTableStep derive) .empty h t) :
    (∀ ip e, t.peers.lookup ip = some e → derive e.endpointId = ip) ∧
      (∀ ip, (t.peers.lookup ip).isSome = true ↔ ∃ network, t.sharesNetwork ip network = true) ∧
      (∀ ip conn handle network, t.resolveInbound ip conn handle = some network →
        t.sharesNetwork ip network = true) ∧
      ((∀ e ∈ h, e.after.AllTagged) ↔ ∀ e ∈ h, ¬e.before.Exhausts derive e.act) := by
  have placed := PeerTable.placed_run run
  refine ⟨fun ip e held => (placed ip e held).1, placed.isSome_iff,
    fun _ _ _ _ => PeerTable.sharesNetwork_of_resolveInbound,
    (run.always_iff PeerTable.allTagged_empty fun step tagged => ?_).1⟩
  rw [step]
  exact tagged.step_iff _

/-- One operation on a table whose only peer has address 1. -/
def PeerTable.entry (t : PeerTable) (a : PeerTableAct) : PeerTableEntry :=
  ⟨t, a, (), t.step (fun _ => 1) a⟩

def sharedFirst : PeerTableEntry := PeerTable.empty.entry (.register ⟨0, 0⟩ 7 ['a'])

def sharedSecond : PeerTableEntry := sharedFirst.after.entry (.attachNetwork 1 ['b'])

/-- Two networks shared with one peer. -/
theorem peer_table_two_networks :
    sharedSecond.after.sharesNetwork 1 ['b'] = true ∧
      ∀ e ∈ [sharedFirst, sharedSecond], e.after.AllTagged := by
  have run : Run (peerTableStep fun _ => 1) .empty [sharedFirst, sharedSecond] sharedSecond.after :=
    (Run.nil.snoc rfl).snoc rfl
  refine ⟨by decide, (peer_table_consistent run).2.2.2.mpr fun e member exhausts => ?_⟩
  rcases List.mem_pair.mp member with rfl | rfl
  · exact absurd exhausts.2.2 (by decide)
  · exact absurd exhausts.2 (by decide)

/-! ## A peer without handles left -/

/-- A different name for every number. -/
def numberedNetwork (n : Nat) : Name := List.replicate n 'n'

theorem PeerTable.used_attached {t : PeerTable} {ip : Ipv6Addr} {network : Name}
    (present : (t.slot ip).entry.isSome = true) (fresh : network ∉ (t.slot ip).used) :
    ((t.setSlot ip ((t.slot ip).attachNetwork network).2).slot ip).used =
      (t.slot ip).used.insert network (nextFreeHandle (t.slot ip).used) := by
  rw [used_setSlot, if_pos rfl, PeerSlot.used_attachNetwork, if_pos present, assignHandle,
    if_neg fresh]

theorem not_mem_numbered {used : HashMap Name Handle} {n : Nat}
    (names : ∀ network ∈ used, network.length ≤ n) : numberedNetwork (n + 1) ∉ used := by
  intro member
  have short := names _ member
  rw [numberedNetwork, List.length_replicate] at short
  exact absurd short (Nat.not_succ_le_self n)

/-- A peer that shares `n + 1` networks, while there are handles. -/
theorem numbered_run (n : Nat) (room : n + 1 ≤ 65535) :
    ∃ h t, Run (peerTableStep fun _ => 0) .empty h t ∧ t.AllTagged ∧
      (t.slot 0).entry.isSome = true ∧ (t.slot 0).used.size = n + 1 ∧
      ∀ network ∈ (t.slot 0).used, network.length ≤ n := by
  induction n with
  | zero =>
    have step : peerTableStep (fun _ => 0) .empty (.register ⟨0, 0⟩ 0 []) ()
        (PeerTable.empty.step (fun _ => 0) (.register ⟨0, 0⟩ 0 [])) := rfl
    refine ⟨_, _, Run.nil.snoc step, ?_, rfl, rfl, fun network member => ?_⟩
    · exact (PeerTable.allTagged_empty.step_iff _).mpr fun exhausts =>
        PeerTable.not_exhausted_empty [] exhausts.2
    · rw [show network = [] from List.mem_singleton.mp member]
      exact le_rfl
  | succ n ih =>
    obtain ⟨h, t, run, tagged, present, size, names⟩ := ih (Nat.le_of_succ_le room)
    have fresh := not_mem_numbered names
    have step : peerTableStep (fun _ => 0) t (.attachNetwork 0 (numberedNetwork (n + 1))) ()
        (t.setSlot 0 ((t.slot 0).attachNetwork (numberedNetwork (n + 1))).2) := rfl
    refine ⟨_, _, run.snoc step, ?_, ?_, ?_, ?_⟩
    · have still :
          (t.step (fun _ => 0) (.attachNetwork 0 (numberedNetwork (n + 1)))).AllTagged := by
        refine (tagged.step_iff _).mpr fun exhausts => ?_
        rw [PeerTable.Exhausts, Exhausted, size] at exhausts
        exact absurd exhausts.2 (Nat.not_le.mpr room)
      exact still
    · refine PeerSlot.isSome_of_used (numberedNetwork (n + 1)) ?_
      rw [PeerTable.used_attached present fresh]
      exact (AList.mem_insert _).mpr (.inl rfl)
    · rw [PeerTable.used_attached present fresh, HashMap.size, AList.entries_insert_of_notMem fresh]
      exact congrArg Nat.succ size
    · rw [PeerTable.used_attached present fresh]
      intro network member
      rcases (AList.mem_insert _).mp member with rfl | earlier
      · rw [numberedNetwork, List.length_replicate]
      · exact (names network earlier).trans (Nat.le_succ n)

/-- The network after the last handle gets the handle of another. -/
theorem handle_assigned_twice :
    ∃ h t ip one two handle, Run (peerTableStep fun _ => 0) .empty h t ∧ one ≠ two ∧
      (t.slot ip).used.lookup one = some handle ∧ (t.slot ip).used.lookup two = some handle := by
  obtain ⟨h, t, run, tagged, present, size, names⟩ := numbered_run 65534 le_rfl
  have fresh := not_mem_numbered names
  generalize numberedNetwork (65534 + 1) = network at fresh
  obtain ⟨other, held⟩ := taken_of_full (tagged 0) size.ge (nextFreeHandle_range (t.slot 0).used)
  have differs : other ≠ network := by
    rintro rfl
    rw [AList.lookup_eq_none.mpr fresh] at held
    cases held
  have step : peerTableStep (fun _ => 0) t (.attachNetwork 0 network) ()
      (t.setSlot 0 ((t.slot 0).attachNetwork network).2) := rfl
  refine ⟨_, _, 0, other, network, nextFreeHandle (t.slot 0).used, run.snoc step, differs, ?_, ?_⟩
  · rwa [PeerTable.used_attached present fresh, AList.lookup_insert_ne differs]
  · rw [PeerTable.used_attached present fresh, AList.lookup_insert]

end Rayfish
