import Rayfish.Peers.Selection

/-!
# The network of a datagram

A datagram carries a handle instead of its network. The sender assigns handles, announces
them, and the receiver decodes with the last announcement it has. A handle is free again
as soon as its network is detached, and datagrams do not wait for announcements, so a
handle can come to mean two networks at once.

* `LinkAct.run`: one connection with its two ends, the announcements and the datagrams
  under way;
* `Link.Tagged`: every place where a handle stands for a network;
* `datagram_attribution`: while no end gives out a handle that still stands for another
  network, no datagram is taken for one of another network;
* `handle_reused_in_flight`: without that, one is.
-/

namespace Rayfish

open Lib

/-! ## The two ends -/

/-- A binding of a handle to a network: announced, or stamped on a datagram. Only the
handle of a datagram is on the wire; `network` is the one its sender chose. -/
structure NetworkHandle where
  network : Name
  handle : Handle
  deriving DecidableEq

structure LinkEnd where
  slot : PeerSlot
  /-- Announcements sent by this end and not accepted yet, oldest first. -/
  announcements : List (List NetworkHandle)
  /-- Datagrams sent by this end and not arrived yet. -/
  datagrams : List NetworkHandle
  /-- The last announcement this end has accepted. -/
  latest : Option (List NetworkHandle)

/-- One connection between two peers. -/
structure Link where
  ends : Side → LinkEnd

namespace Link

def set (s : Link) (side : Side) (e : LinkEnd) : Link := ⟨Function.update s.ends side e⟩

def setSlot (s : Link) (side : Side) (slot : PeerSlot) : Link :=
  s.set side { s.ends side with slot := slot }

def start : Link := ⟨fun _ => ⟨⟨none, ∅⟩, [], [], none⟩⟩

end Link

/-- The tag this end stamps on datagrams of `network`. -/
def PeerSlot.outHandle (s : PeerSlot) (network : Name) : Option Handle :=
  s.entry.bind (·.outHandles.lookup network)

/-- The network the peer announced under `handle`. -/
def PeerSlot.inNetwork (s : PeerSlot) (handle : Handle) : Option Name :=
  s.entry.bind (·.active.inHandles.lookup handle)

/-- The snapshot that is announced: the networks whose key is known. -/
def announceHandlesWith (slot : PeerSlot) (known : List Name) : List NetworkHandle :=
  slot.outboundHandles.filterMap fun (network, handle) =>
    if network ∈ known then some ⟨network, handle⟩ else none

/-- Decode with an announcement, as far as this end runs its networks. -/
def applyNetworkHandles (slot : PeerSlot) (conn : Connection) (runs : List Name)
    (entries : List NetworkHandle) : PeerSlot :=
  slot.setInboundHandles conn <| entries.filterMap fun e =>
    if e.network ∈ runs then some (e.handle, e.network) else none

inductive LinkAct where
  /-- A frame registers the peer for `network`. -/
  | register (side : Side) (id : EndpointId) (network : Name)
  /-- A roster lists the peer on a further network. -/
  | attach (side : Side) (network : Name)
  | detach (side : Side) (network : Name)
  /-- `known` are the networks whose key the configuration has. -/
  | announce (side : Side) (known : List Name)
  /-- `runs` are the networks with a handler at this end. -/
  | accept (side : Side) (runs : List Name)
  /-- A registration applies the last announcement again. -/
  | reapply (side : Side) (runs : List Name)
  | send (side : Side) (network : Name)
  /-- A datagram of `side` reaches the other end. -/
  | deliver (side : Side) (tag : NetworkHandle)
  | lose (side : Side) (tag : NetworkHandle)

inductive LinkOut where
  | done
  | attributed (network : Option Name)

def LinkAct.run (conn : Side → Connection) (s : Link) : LinkAct → Option (LinkOut × Link)
  | .register side id network =>
    some (.done, s.setSlot side ((s.ends side).slot.add (conn side) id network).2)
  | .attach side network =>
    some (.done, s.setSlot side ((s.ends side).slot.attachNetwork network).2)
  | .detach side network =>
    some (.done, s.setSlot side ((s.ends side).slot.removePeerFromNetwork network).2)
  | .announce side known =>
    let entries := announceHandlesWith (s.ends side).slot known
    if entries.isEmpty then some (.done, s)
    else
      some (.done, s.set side { s.ends side with
        announcements := (s.ends side).announcements ++ [entries] })
  | .accept side runs =>
    match (s.ends side.other).announcements with
    | [] => none
    | entries :: rest =>
      let s := s.set side.other { s.ends side.other with announcements := rest }
      some (.done, s.set side { s.ends side with
        slot := applyNetworkHandles (s.ends side).slot (conn side) runs entries
        latest := some entries })
  | .reapply side runs =>
    (s.ends side).latest.map fun entries =>
      (.done, s.setSlot side (applyNetworkHandles (s.ends side).slot (conn side) runs entries))
  | .send side network =>
    ((s.ends side).slot.outHandle network).map fun handle =>
      (.done, s.set side { s.ends side with
        datagrams := ⟨network, handle⟩ :: (s.ends side).datagrams })
  | .deliver side tag =>
    if tag ∈ (s.ends side).datagrams then
      some (.attributed ((s.ends side.other).slot.resolveInbound (conn side.other) tag.handle),
        s.set side { s.ends side with datagrams := (s.ends side).datagrams.erase tag })
    else none
  | .lose side tag =>
    if tag ∈ (s.ends side).datagrams then
      some (.done, s.set side { s.ends side with
        datagrams := (s.ends side).datagrams.erase tag })
    else none

def linkStep (conn : Side → Connection) : StepRel Link LinkAct LinkOut := fun s a out s' =>
  a.run conn s = some (out, s')

abbrev LinkEntry := Entry Link LinkAct LinkOut

/-! ## Handles of one slot -/

/-- Some network of the table has this handle. -/
def Taken (used : HashMap Name Handle) (handle : Handle) : Prop :=
  ∃ network, used.lookup network = some handle

/-- The lowest handle that is free. -/
structure LowestFree (used : HashMap Name Handle) (handle : Handle) : Prop where
  positive : 1 ≤ handle
  free : ¬ Taken used handle
  lowest : ∀ lower, 1 ≤ lower → lower < handle → Taken used lower

theorem all_ne_iff_not_taken : used.entries.all (fun e => e.2 ≠ handle) ↔ ¬ Taken used handle := by
  rw [List.all_eq_true]
  constructor
  · rintro none ⟨network, held⟩
    have := none _ (AList.mem_lookup_iff.mp held)
    simp at this
  · intro free e member
    refine decide_eq_true fun same => free ⟨e.1, ?_⟩
    exact AList.mem_lookup_iff.mpr (same ▸ member)

theorem nextFreeHandle_eq (free : LowestFree used handle) (bounded : handle ≤ 65535) :
    nextFreeHandle used = handle := by
  have found : ((List.range' 1 65535).find? fun handle => used.entries.all fun e => e.2 ≠ handle) =
      some handle := by
    rw [List.find?_range'_eq_some]
    refine ⟨all_ne_iff_not_taken.mpr free.free, ?_, fun lower positive less => ?_⟩
    · rw [List.mem_range'_1]
      exact ⟨free.positive, Nat.lt_add_one_of_le (Nat.add_comm 0 _ ▸ bounded)⟩
    · rw [Bool.not_eq_true', Bool.eq_false_iff]
      exact fun none => all_ne_iff_not_taken.mp none (free.lowest lower positive less)
  rw [nextFreeHandle, found, Option.getD_some]

namespace PeerSlot

/-- The handles in use. -/
def used (s : PeerSlot) : HashMap Name Handle := s.entry.elim ∅ (·.outHandles)

theorem lookup_used (s : PeerSlot) (network : Name) :
    s.used.lookup network = s.outHandle network := by
  unfold used outHandle
  cases s.entry with
  | none => exact AList.lookup_empty network
  | some e => rfl

variable {s : PeerSlot} {network n : Name} {handle k : Handle} {conn : Connection}

theorem lookup_assignHandle {used : HashMap Name Handle}
    (held : (assignHandle used network).lookup n = some k) :
    used.lookup n = some k ∨
      (n = network ∧ used.lookup network = none ∧ k = nextFreeHandle used) := by
  unfold assignHandle at held
  split at held
  · exact .inl held
  next fresh =>
  rcases eq_or_ne n network with rfl | other
  · rw [AList.lookup_insert] at held
    exact .inr ⟨rfl, AList.lookup_eq_none.mpr fresh, (Option.some.inj held).symm⟩
  · rw [AList.lookup_insert_ne other] at held
    exact .inl held

theorem add_entry {id : EndpointId} {e' : PeerEntry}
    (at_entry : (s.add conn id network).2.entry = some e') :
    (conn ∈ s.closed ∧ s.entry = some e') ∨
      (conn ∉ s.closed ∧ e'.endpointId = id ∧ e'.outHandles = assignHandle s.used network) := by
  unfold add at at_entry
  split at at_entry
  · next isClosed => exact .inl ⟨isClosed, at_entry⟩
  next isOpen =>
  split at at_entry
  · next e held =>
    obtain rfl := Option.some.inj at_entry
    have table : ((e.installConnection s.closed conn).2.2).outHandles = e.outHandles := by
      unfold PeerEntry.installConnection
      split
      · rfl
      · split <;> rfl
    refine .inr ⟨isOpen, rfl, ?_⟩
    rw [table, used, held, Option.elim_some]
  · next vacant =>
    cases at_entry
    refine .inr ⟨isOpen, rfl, ?_⟩
    rw [used, vacant]
    rfl

/-- A handle after a registration was there before, or is the one given to `network`. -/
theorem outHandle_add {id : EndpointId} (held : (s.add conn id network).2.outHandle n = some k) :
    s.outHandle n = some k ∨
      (n = network ∧ s.outHandle network = none ∧ k = nextFreeHandle s.used) := by
  obtain ⟨e', at_entry, held⟩ := Option.bind_eq_some_iff.mp held
  rcases add_entry at_entry with ⟨-, same⟩ | ⟨-, -, table⟩
  · exact .inl (Option.bind_eq_some_iff.mpr ⟨e', same, held⟩)
  · rw [table] at held
    simpa only [lookup_used] using lookup_assignHandle held

theorem inNetwork_add {id : EndpointId}
    (decoded : (s.add conn id network).2.inNetwork k = some n) : s.inNetwork k = some n := by
  unfold add at decoded
  split at decoded
  · exact decoded
  split at decoded
  · next e entry =>
    dsimp only [inNetwork, Option.bind_some] at decoded
    unfold PeerEntry.installConnection at decoded
    rw [inNetwork, entry, Option.bind_some]
    split at decoded
    · exact decoded
    · split at decoded
      · exact decoded
      · cases decoded
  · cases decoded

theorem attachNetwork_cases (s : PeerSlot) (network : Name) :
    (s.attachNetwork network).2 = s ∨ ∃ e, s.entry = some e ∧
      (s.attachNetwork network).2 =
        { s with entry := some { e with outHandles := assignHandle e.outHandles network } } := by
  unfold attachNetwork
  split
  · next e entry =>
    split
    · exact .inl rfl
    · next fresh =>
      exact .inr ⟨e, entry, by rw [assignHandle, if_neg fresh]⟩
  · exact .inl rfl

theorem outHandle_attachNetwork (held : (s.attachNetwork network).2.outHandle n = some k) :
    s.outHandle n = some k ∨
      (n = network ∧ s.outHandle network = none ∧ k = nextFreeHandle s.used) := by
  rcases attachNetwork_cases s network with same | ⟨e, entry, after⟩
  · exact .inl (same ▸ held)
  · rw [after] at held
    have used : s.used = e.outHandles := by rw [PeerSlot.used, entry, Option.elim_some]
    rw [← used] at held
    simpa only [lookup_used] using lookup_assignHandle held

theorem inNetwork_attachNetwork : (s.attachNetwork network).2.inNetwork k = s.inNetwork k := by
  rcases attachNetwork_cases s network with same | ⟨e, entry, after⟩
  · rw [same]
  · rw [after, inNetwork, inNetwork, entry]
    rfl

theorem removePeerFromNetwork_cases (s : PeerSlot) (network : Name) :
    (s.removePeerFromNetwork network).2 = { s with entry := none } ∨ ∃ e, s.entry = some e ∧
      (s.removePeerFromNetwork network).2 =
        { s with entry := some { e with outHandles := e.outHandles.erase network } } := by
  unfold removePeerFromNetwork
  split
  · next e entry =>
    dsimp only
    split
    · exact .inl rfl
    · exact .inr ⟨e, entry, rfl⟩
  · next vacant => exact .inl (by rw [← vacant])

theorem outHandle_removePeerFromNetwork
    (held : (s.removePeerFromNetwork network).2.outHandle n = some k) :
    s.outHandle n = some k := by
  rcases removePeerFromNetwork_cases s network with gone | ⟨e, entry, after⟩
  · rw [gone] at held
    cases held
  · rw [after] at held
    dsimp only [outHandle, Option.bind_some] at held
    rw [outHandle, entry, Option.bind_some]
    rcases eq_or_ne n network with rfl | other
    · rw [AList.lookup_erase] at held
      cases held
    · rwa [AList.lookup_erase_ne other] at held

theorem inNetwork_removePeerFromNetwork
    (decoded : (s.removePeerFromNetwork network).2.inNetwork k = some n) :
    s.inNetwork k = some n := by
  rcases removePeerFromNetwork_cases s network with gone | ⟨e, entry, after⟩
  · rw [gone] at decoded
    cases decoded
  · rw [after] at decoded
    rw [inNetwork, entry]
    exact decoded

variable {entries : List (Handle × Name)}

theorem outHandle_setInboundHandles :
    (s.setInboundHandles conn entries).outHandle n = s.outHandle n := by
  unfold setInboundHandles updateCurrent outHandle
  cases s.entry with
  | none => rfl
  | some e =>
    dsimp only [Option.map_some, Option.bind_some]
    split <;> rfl

/-- A network found in a table filled from `entries` is among them, or was there before. -/
theorem lookup_foldl_insert {table : HashMap Handle Name}
    (found : (entries.foldl (fun table entry => table.insert entry.1 entry.2) table).lookup k =
      some n) :
    (k, n) ∈ entries ∨ table.lookup k = some n := by
  induction entries generalizing table with
  | nil => exact .inr found
  | cons entry rest ih =>
    rcases ih found with later | before
    · exact .inl (List.mem_cons_of_mem _ later)
    · rcases eq_or_ne k entry.1 with rfl | other
      · rw [AList.lookup_insert] at before
        cases before
        exact .inl List.mem_cons_self
      · rw [AList.lookup_insert_ne other] at before
        exact .inr before

theorem inNetwork_setInboundHandles
    (decoded : (s.setInboundHandles conn entries).inNetwork k = some n) :
    s.inNetwork k = some n ∨ (k, n) ∈ entries := by
  unfold setInboundHandles updateCurrent inNetwork at decoded
  unfold inNetwork
  cases entry : s.entry with
  | none => rw [entry] at decoded; cases decoded
  | some e =>
    rw [entry] at decoded
    dsimp only [Option.map_some, Option.bind_some] at decoded ⊢
    split at decoded
    · rcases lookup_foldl_insert decoded with announced | none
      · exact .inr announced
      · rw [AList.lookup_empty] at none
        cases none
    · exact .inl decoded

theorem inNetwork_of_resolveInbound (resolved : s.resolveInbound conn k = some n) :
    s.inNetwork k = some n := by
  obtain ⟨e, entry, found⟩ := Option.bind_eq_some_iff.mp resolved
  have found := (Option.ite_none_right_eq_some.1 found).2
  rw [inNetwork, entry, Option.bind_some]
  exact (Option.filter_eq_some_iff.mp found).1

end PeerSlot

/-! ## One step -/

variable {conn : Side → Connection} {s s' : Link} {a : LinkAct} {out : LinkOut}
  {side : Side} {tag : NetworkHandle}

/-- The end has given `tag.handle` to `tag.network`, or has said so. -/
inductive LinkEnd.Sends (e : LinkEnd) (tag : NetworkHandle) : Prop
  | held (own : e.slot.outHandle tag.network = some tag.handle)
  | sent (underway : tag ∈ e.datagrams)
  | announced (entries : List NetworkHandle) (queued : entries ∈ e.announcements)
      (member : tag ∈ entries)

/-- The end takes `tag.handle` for `tag.network`, or may come to. -/
inductive LinkEnd.Decodes (e : LinkEnd) (tag : NetworkHandle) : Prop
  | kept (entries : List NetworkHandle) (latest : e.latest = some entries) (member : tag ∈ entries)
  | decoded (known : e.slot.inNetwork tag.handle = some tag.network)

/-- Somewhere on the way from `side` to the other end the handle stands for the network. -/
def Link.Tagged (s : Link) (side : Side) (tag : NetworkHandle) : Prop :=
  (s.ends side).Sends tag ∨ (s.ends side.other).Decodes tag

/-- The action shares `network` with the peer at `side`. -/
def LinkAct.Shares (a : LinkAct) (side : Side) (network : Name) : Prop :=
  (∃ id, a = .register side id network) ∨ a = .attach side network

/-- The handle that `side` gives out next exists and stands for no network but, possibly,
`network`. -/
def Link.Unambiguous (s : Link) (side : Side) (network : Name) : Prop :=
  ∃ handle ≤ 65535, LowestFree (s.ends side).slot.used handle ∧
    ∀ tag, s.Tagged side tag → tag.handle = handle → tag.network = network

theorem Side.other_ne (side : Side) : side.other ≠ side := by
  cases side <;> decide

theorem Side.other_other (side : Side) : side.other.other = side := by
  cases side <;> rfl

theorem Side.eq_or_other (side actor : Side) : actor = side ∨ actor = side.other := by
  cases side <;> cases actor <;> decide

variable {actor : Side} {slot : PeerSlot}

variable {e : LinkEnd}

/-- What setting one end can change of a direction. -/
theorem Link.tagged_set (tagged : (s.set actor e).Tagged side tag) :
    s.Tagged side tag ∨ (actor = side ∧ e.Sends tag) ∨ (actor = side.other ∧ e.Decodes tag) := by
  have own : (s.set actor e).ends actor = e := Function.update_self ..
  rcases side.eq_or_other actor with rfl | rfl
  · have other : (s.set actor e).ends actor.other = s.ends actor.other :=
      Function.update_of_ne actor.other_ne ..
    rw [Link.Tagged, own, other] at tagged
    rcases tagged with sends | decodes
    · exact .inr (.inl ⟨rfl, sends⟩)
    · exact .inl (.inr decodes)
  · have other : (s.set side.other e).ends side = s.ends side :=
      Function.update_of_ne side.other_ne.symm ..
    rw [Link.Tagged, own, other] at tagged
    rcases tagged with sends | decodes
    · exact .inl (.inl sends)
    · exact .inr (.inr ⟨rfl, decodes⟩)

theorem LinkEnd.Sends.of_slot (sends : LinkEnd.Sends { e with slot := slot } tag) :
    e.Sends tag ∨ slot.outHandle tag.network = some tag.handle := by
  cases sends with
  | held own => exact .inr own
  | sent underway => exact .inl (.sent underway)
  | announced entries queued member => exact .inl (.announced entries queued member)

theorem LinkEnd.Decodes.of_slot (decodes : LinkEnd.Decodes { e with slot := slot } tag) :
    e.Decodes tag ∨ slot.inNetwork tag.handle = some tag.network := by
  cases decodes with
  | kept entries latest member => exact .inl (.kept entries latest member)
  | decoded known => exact .inr known

theorem outHandle_of_announced (member : tag ∈ announceHandlesWith slot known) :
    slot.outHandle tag.network = some tag.handle := by
  obtain ⟨⟨network, handle⟩, listed, kept⟩ := List.mem_filterMap.mp member
  cases (Option.ite_none_right_eq_some.1 kept).2
  unfold PeerSlot.outboundHandles at listed
  unfold PeerSlot.outHandle
  cases entry : slot.entry with
  | none => rw [entry] at listed; cases listed
  | some e =>
    rw [entry, Option.elim_some] at listed
    obtain ⟨⟨n, k⟩, held, same⟩ := List.mem_map.mp listed
    cases same
    exact AList.mem_lookup_iff.mpr held

theorem inNetwork_applyNetworkHandles
    (decoded : (applyNetworkHandles slot c runs entries).inNetwork k = some n) :
    slot.inNetwork k = some n ∨ ⟨n, k⟩ ∈ entries := by
  rcases PeerSlot.inNetwork_setInboundHandles decoded with before | announced
  · exact .inl before
  · obtain ⟨e, member, kept⟩ := List.mem_filterMap.mp announced
    cases (Option.ite_none_right_eq_some.1 kept).2
    exact .inr member

/-- A change of one slot that assigns no handle and learns none. -/
theorem Link.Tagged.of_setSlot (tagged : (s.setSlot actor slot).Tagged side tag)
    (decodes : slot.inNetwork tag.handle = some tag.network → (s.ends actor).Decodes tag) :
    s.Tagged side tag ∨ (actor = side ∧ slot.outHandle tag.network = some tag.handle) := by
  rcases tagged_set tagged with before | ⟨rfl, sends⟩ | ⟨rfl, decoded⟩
  · exact .inl before
  · rcases sends.of_slot with before | held
    · exact .inl (.inl before)
    · exact .inr ⟨rfl, held⟩
  · rcases decoded.of_slot with before | known
    · exact .inl (.inr before)
    · exact .inl (.inr (decodes known))

/-- A change of what an end has sent that adds nothing it had not said before. -/
theorem Link.Tagged.of_sent
    (tagged : (s.set actor { s.ends actor with datagrams, announcements }).Tagged side tag)
    (sent : tag ∈ datagrams → (s.ends actor).Sends tag)
    (said : ∀ entries ∈ announcements, tag ∈ entries → (s.ends actor).Sends tag) :
    s.Tagged side tag := by
  rcases tagged_set tagged with before | ⟨rfl, sends⟩ | ⟨rfl, decoded⟩
  · exact before
  · cases sends with
    | held own => exact .inl (.held own)
    | sent underway => exact .inl (sent underway)
    | announced entries queued member => exact .inl (said entries queued member)
  · cases decoded with
    | kept entries latest member => exact .inr (.kept entries latest member)
    | decoded known => exact .inr (.decoded known)

/-- Accepting an announcement moves its entries to the end that decodes with them. -/
theorem Link.Tagged.of_accept (queue : (s.ends actor.other).announcements = entries :: rest)
    (step : linkStep conn s (.accept actor runs) out s') (tagged : s'.Tagged side tag) :
    s.Tagged side tag := by
  simp only [linkStep, LinkAct.run, queue] at step
  cases step
  have own : (s.set actor.other { s.ends actor.other with announcements := rest }).ends actor =
      s.ends actor := Function.update_of_ne actor.other_ne.symm ..
  have first : entries ∈ (s.ends actor.other).announcements := queue ▸ List.mem_cons_self
  rw [own] at tagged
  rcases tagged_set tagged with dequeued | ⟨rfl, sends⟩ | ⟨rfl, decoded⟩
  · refine dequeued.of_sent .sent fun entries' queued member => ?_
    exact .announced entries' (queue ▸ List.mem_cons_of_mem _ queued) member
  · cases sends with
    | held own => exact .inl (.held (PeerSlot.outHandle_setInboundHandles ▸ own))
    | sent underway => exact .inl (.sent underway)
    | announced entries' queued member => exact .inl (.announced entries' queued member)
  · rw [Side.other_other] at first
    cases decoded with
    | kept entries' latest member =>
      cases latest
      exact .inl (.announced entries first member)
    | decoded known =>
      rcases inNetwork_applyNetworkHandles known with before | member
      · exact .inr (.decoded before)
      · exact .inl (.announced entries first member)

/-- A handle stands for a network after a step if it did before, or the step has just
given it to that network. -/
theorem Link.Tagged.of_step (step : linkStep conn s a out s') (tagged : s'.Tagged side tag) :
    s.Tagged side tag ∨ (a.Shares side tag.network ∧
      (s.ends side).slot.outHandle tag.network = none ∧
      tag.handle = nextFreeHandle (s.ends side).slot.used) := by
  cases a with
  | register actor id network =>
    cases step
    rcases tagged.of_setSlot fun decoded => .decoded (PeerSlot.inNetwork_add decoded) with
      before | ⟨rfl, held⟩
    · exact .inl before
    · rcases PeerSlot.outHandle_add held with before | ⟨rfl, fresh, given⟩
      · exact .inl (.inl (.held before))
      · exact .inr ⟨.inl ⟨id, rfl⟩, fresh, given⟩
  | attach actor network =>
    cases step
    rcases tagged.of_setSlot fun decoded =>
        .decoded (PeerSlot.inNetwork_attachNetwork ▸ decoded) with before | ⟨rfl, held⟩
    · exact .inl before
    · rcases PeerSlot.outHandle_attachNetwork held with before | ⟨rfl, fresh, given⟩
      · exact .inl (.inl (.held before))
      · exact .inr ⟨.inr rfl, fresh, given⟩
  | detach actor network =>
    cases step
    rcases tagged.of_setSlot fun decoded =>
        .decoded (PeerSlot.inNetwork_removePeerFromNetwork decoded) with before | ⟨rfl, held⟩
    · exact .inl before
    · exact .inl (.inl (.held (PeerSlot.outHandle_removePeerFromNetwork held)))
  | announce actor known =>
    left
    simp only [linkStep, LinkAct.run] at step
    split at step
    · cases step
      exact tagged
    cases step
    refine tagged.of_sent .sent fun entries queued member => ?_
    rcases mem_snoc_cases queued with older | rfl
    · exact .announced entries older member
    · exact .held (outHandle_of_announced member)
  | accept actor runs =>
    cases queue : (s.ends actor.other).announcements with
    | nil =>
      simp only [linkStep, LinkAct.run, queue] at step
      cases step
    | cons entries rest => exact .inl (tagged.of_accept queue step)
  | reapply actor runs =>
    obtain ⟨entries, latest, same⟩ := Option.map_eq_some_iff.mp step
    cases same
    have decodes (decoded : (applyNetworkHandles (s.ends actor).slot (conn actor) runs
        entries).inNetwork tag.handle = some tag.network) : (s.ends actor).Decodes tag := by
      rcases inNetwork_applyNetworkHandles decoded with before | member
      · exact .decoded before
      · exact .kept entries latest member
    rcases tagged.of_setSlot decodes with before | ⟨rfl, held⟩
    · exact .inl before
    · exact .inl (.inl (.held (PeerSlot.outHandle_setInboundHandles ▸ held)))
  | send actor network =>
    left
    obtain ⟨handle, own, same⟩ := Option.map_eq_some_iff.mp step
    cases same
    refine tagged.of_sent (fun underway => ?_) .announced
    rcases List.mem_cons.mp underway with rfl | older
    · exact .held own
    · exact .sent older
  | deliver actor arrived | lose actor lost =>
    cases (Option.ite_none_right_eq_some.1 step).2
    exact .inl (tagged.of_sent (.sent ∘ List.mem_of_mem_erase) .announced)

/-! ## Runs -/

/-- No handle stands for two networks on the way from `side`. -/
def Link.Coherent (s : Link) (side : Side) : Prop :=
  ∀ handle n n', s.Tagged side ⟨n, handle⟩ → s.Tagged side ⟨n', handle⟩ → n = n'

theorem Link.Coherent.step (coherent : s.Coherent side) (step : linkStep conn s a out s')
    (clear : ∀ network, a.Shares side network → (s.ends side).slot.outHandle network = none →
      s.Unambiguous side network) :
    s'.Coherent side := by
  -- the handle a step gives out stands for its network alone
  have given : ∀ handle n n', a.Shares side n → (s.ends side).slot.outHandle n = none →
      handle = nextFreeHandle (s.ends side).slot.used → s.Tagged side ⟨n', handle⟩ → n' = n := by
    intro handle n n' shares fresh given tagged
    obtain ⟨lowest, bounded, free, only⟩ := clear n shares fresh
    exact only _ tagged (given.trans (nextFreeHandle_eq free bounded))
  have same_network : ∀ {n n'}, a.Shares side n → a.Shares side n' → n = n' := by
    rintro n n' (⟨id, rfl⟩ | rfl) (⟨id', act⟩ | act) <;> cases act <;> rfl
  intro handle n n' tagged tagged'
  rcases tagged.of_step step with before | ⟨shares, fresh, new⟩ <;>
    rcases tagged'.of_step step with before' | ⟨shares', fresh', new'⟩
  · exact coherent handle n n' before before'
  · exact given handle n' n shares' fresh' new' before
  · exact (given handle n n' shares fresh new before').symm
  · exact same_network shares shares'

variable {h : List LinkEntry}

theorem run_coherent (run : Run (linkStep conn) .start h s)
    (clear : ∀ e ∈ h, ∀ network, e.act.Shares side network →
      (e.before.ends side).slot.outHandle network = none → e.before.Unambiguous side network) :
    s.Coherent side := by
  refine run.invariant clear ?_ fun _ _ step clear before => before.step step clear
  rintro handle n n' (sends | decodes) -
  · cases sends with
    | held own => cases own
    | sent underway => cases underway
    | announced entries queued _ => cases queued
  · cases decodes with
    | kept entries latest _ => cases latest
    | decoded known => cases known

/-- **Datagram attribution.** As long as `side` gives out no handle that still stands for
another network, on a datagram, in an announcement or at the receiver, each of its
datagrams is attributed to its own network or dropped. -/
theorem datagram_attribution (side : Side) (run : Run (linkStep conn) .start h s)
    (clear : ∀ e ∈ h, ∀ network, e.act.Shares side network →
      (e.before.ends side).slot.outHandle network = none → e.before.Unambiguous side network) :
    ∀ e ∈ h, ∀ tag network, e.act = .deliver side tag → e.out = .attributed (some network) →
      network = tag.network := by
  intro e member tag network act out
  obtain ⟨h', part, before⟩ := run.before member
  have coherent := run_coherent before fun e' earlier => clear e' (part earlier)
  have step := run.entry_step member
  rw [act] at step
  obtain ⟨underway, step⟩ := Option.ite_none_right_eq_some.1 step
  obtain ⟨answer, -⟩ := Prod.mk.inj (Option.some.inj step)
  obtain resolved := LinkOut.attributed.inj (answer.trans out)
  exact coherent tag.handle network tag.network
    (.inr (.decoded (PeerSlot.inNetwork_of_resolveInbound resolved))) (.inl (.sent underway))

/-- Before anything is announced only the datagrams matter. -/
theorem Link.unambiguous_of_unannounced (handle : Handle) (bounded : handle ≤ 65535)
    (free : LowestFree (s.ends side).slot.used handle) (silent : (s.ends side).announcements = [])
    (unknown : (s.ends side.other).latest = none) (vacant : (s.ends side.other).slot.entry = none)
    (sent : ∀ tag ∈ (s.ends side).datagrams, tag.handle ≠ handle) :
    s.Unambiguous side network := by
  refine ⟨handle, bounded, free, ?_⟩
  rintro tag (sends | decodes) rfl
  · cases sends with
    | held own => exact absurd ⟨tag.network, (PeerSlot.lookup_used _ _).trans own⟩ free.free
    | sent underway => exact absurd rfl (sent tag underway)
    | announced entries queued member => rw [silent] at queued; cases queued
  · cases decodes with
    | kept entries latest member => cases unknown.symm.trans latest
    | decoded known =>
      rw [PeerSlot.inNetwork, vacant] at known
      cases known

/-- The one connection of the runs below. -/
def soleConn : Side → Connection := fun _ => ⟨0, 0⟩

/-- A second network is attached while a datagram of the first is under way. It gets
another handle, and the datagram arrives as one of the first. -/
theorem datagram_attribution_second :
    ∃ h s, Run (linkStep soleConn) .start h s ∧ ∃ e ∈ h,
      e.act = .deliver .left ⟨['n'], 1⟩ ∧ e.out = .attributed (some ['n']) := by
  have run := run_execute (f := fun s a => LinkAct.run soleConn s a) (s := .start)
    [.register .left 1 ['n'], .send .left ['n'], .attach .left ['m'], .register .right 2 ['n'],
      .announce .left [['n'], ['m']], .accept .right [['n'], ['m']], .deliver .left ⟨['n'], 1⟩] rfl
  have right := datagram_attribution .left run ?_ _ (List.mem_of_getElem? (i := 6) rfl)
    ⟨['n'], 1⟩ ['n'] rfl rfl
  · exact ⟨_, _, run, _, List.mem_of_getElem? (i := 6) rfl, rfl,
      congrArg (fun network => LinkOut.attributed (some network)) right⟩
  rintro e member network shares -
  simp only [List.mem_cons, List.not_mem_nil, or_false] at member
  rcases member with rfl | rfl | rfl | rfl | rfl | rfl | rfl
  case inl =>
    refine Link.unambiguous_of_unannounced 1 (by decide) ⟨le_rfl, ?_, ?_⟩ rfl rfl rfl nofun
    · exact all_ne_iff_not_taken.mp rfl
    · exact fun lower positive less => absurd positive (Nat.not_le.mpr less)
  case inr.inr.inl =>
    refine Link.unambiguous_of_unannounced 2 (by decide) ⟨by decide, ?_, ?_⟩ rfl rfl rfl ?_
    · exact all_ne_iff_not_taken.mp rfl
    · intro lower positive less
      obtain rfl : lower = 1 := Nat.le_antisymm (Nat.le_of_lt_succ less) positive
      exact ⟨['n'], rfl⟩
    · exact List.forall_mem_singleton.mpr (by decide)
  all_goals rcases shares with ⟨id, act⟩ | act <;> cases act

/-- A network is detached while one of its datagrams is under way, its handle goes to the
next network, and the datagram is taken for one of that network. -/
theorem handle_reused_in_flight :
    ∃ h s, Run (linkStep soleConn) .start h s ∧ ∃ e ∈ h,
      e.act = .deliver .left ⟨['n'], 1⟩ ∧ e.out = .attributed (some ['m']) ∧
      (e.before.ends .left).slot.outHandle ['m'] = some 1 ∧
      (e.before.ends .right).slot.outHandle ['m'] = some 2 := by
  have run := run_execute (f := fun s a => LinkAct.run soleConn s a) (s := .start)
    [.register .left 1 ['n'], .attach .left ['k'], .register .right 2 ['n'],
      .announce .left [['n'], ['k']], .accept .right [['n'], ['k']], .send .left ['n'],
      .detach .left ['n'], .attach .left ['m'], .announce .left [['k'], ['m']],
      .attach .right ['m'], .accept .right [['k'], ['m']], .deliver .left ⟨['n'], 1⟩] rfl
  exact ⟨_, _, run, _, List.mem_of_getElem? (i := 11) rfl, rfl, rfl, rfl, rfl⟩

end Rayfish
