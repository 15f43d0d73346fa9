import Rayfish.Lib.Run
import Rayfish.Peers.Table

/-!
# Two ends, one connection

Two peers that dial each other end up with several connections. Each end keeps the live
one with the lowest selection id, in whatever order it registers them. The two ends run
here side by side: an end registers a connection, sees one that the other end has closed,
loses one for another reason, or acts on a disconnect report, early or late.

* `Added`: what one registration does to the slot;
* `selection_converges`: the lowest connection, as long as it is up, is closed by neither
  end and stays selected once registered, so both ends come to agree on it.
-/

namespace Rayfish

open Lib

/-! ## The ends -/

inductive Side where
  | left
  | right
  deriving DecidableEq

def Side.other : Side → Side
  | .left => .right
  | .right => .left

/-- The connections two peers share. Both ends see one selection id; the objects are
each end's own. -/
structure Wiring where
  conns : Finset Nat
  selectionId : Nat → BitVec 256
  stableId : Side → Nat → Nat
  selection_injective : ∀ c ∈ conns, ∀ c' ∈ conns, selectionId c = selectionId c' → c = c'
  stable_injective : ∀ side, ∀ c ∈ conns, ∀ c' ∈ conns, stableId side c = stableId side c' → c = c'

def Wiring.conn (w : Wiring) (side : Side) (c : Nat) : Connection :=
  ⟨w.stableId side c, w.selectionId c⟩

structure Ends where
  slots : Side → PeerSlot

inductive SelectionAct where
  | register (side : Side) (c : Nat) (id : EndpointId) (network : Name)
  /-- The close by the other end arrives. -/
  | observe (side : Side) (c : Nat)
  /-- Lost for another reason. -/
  | drop (side : Side) (c : Nat)
  /-- The supervisor handles the report of a connection that has ended. -/
  | report (side : Side) (c : Nat)

inductive SelectionOut where
  | registered (changed : Bool)
  | closed
  | reported (networks : Option (List Name))

namespace Ends

def setSlot (s : Ends) (side : Side) (slot : PeerSlot) : Ends :=
  ⟨Function.update s.slots side slot⟩

def close (s : Ends) (side : Side) (conn : Connection) : Ends :=
  s.setSlot side { s.slots side with closed := insert conn (s.slots side).closed }

/-- Nothing registered and nothing closed. -/
def start : Ends := ⟨fun _ => ⟨none, ∅⟩⟩

end Ends

def SelectionAct.run (w : Wiring) (s : Ends) : SelectionAct → Option (SelectionOut × Ends)
  | .register side c id network =>
    if c ∈ w.conns then
      let (changed, slot) := (s.slots side).add (w.conn side c) id network
      some (.registered changed, s.setSlot side slot)
    else none
  | .observe side c =>
    if c ∈ w.conns ∧ w.conn side.other c ∈ (s.slots side.other).closed then
      some (.closed, s.close side (w.conn side c))
    else none
  | .drop side c => if c ∈ w.conns then some (.closed, s.close side (w.conn side c)) else none
  | .report side c =>
    if c ∈ w.conns ∧ w.conn side c ∈ (s.slots side).closed then
      let (networks, slot) := (s.slots side).removeConnection (some (w.stableId side c))
      some (.reported networks, s.setSlot side slot)
    else none

def selectionStep (w : Wiring) : StepRel Ends SelectionAct SelectionOut := fun s a out s' =>
  a.run w s = some (out, s')

/-- The end that acts. -/
def SelectionAct.side : SelectionAct → Side
  | .register side _ _ _ | .observe side _ | .drop side _ | .report side _ => side

abbrev SelectionEntry := Entry Ends SelectionAct SelectionOut

/-! ## One slot -/

/-- What registering `conn` does to the selection. -/
inductive Added (s : PeerSlot) (conn : Connection) (s' : PeerSlot) : Prop
  | refused (closed : conn ∈ s.closed) (same : s' = s)
  | first (opened : conn ∉ s.closed) (vacant : s.current = none) (selected : s'.current = some conn)
      (closes : s'.closed = s.closed)
  | again (old : Connection) (held : s.current = some old) (same : old.stableId = conn.stableId)
      (selected : s'.current = some old) (closes : s'.closed = s.closed)
  | loses (old : Connection) (held : s.current = some old) (live : old ∉ s.closed)
      (differs : old.stableId ≠ conn.stableId) (lower : old.selectionId ≤ conn.selectionId)
      (selected : s'.current = some old) (closes : s'.closed = insert conn s.closed)
  | wins (old : Connection) (opened : conn ∉ s.closed) (held : s.current = some old)
      (differs : old.stableId ≠ conn.stableId)
      (higher : old ∈ s.closed ∨ conn.selectionId < old.selectionId)
      (selected : s'.current = some conn) (closes : s'.closed = insert old s.closed)

theorem PeerSlot.current_of_entry {s : PeerSlot} {e : PeerEntry} (held : s.entry = some e) :
    s.current = some e.active.conn := by
  rw [current, held, Option.map_some]

theorem PeerSlot.add_cases (s : PeerSlot) (conn : Connection) (id : EndpointId) (network : Name) :
    Added s conn (s.add conn id network).2 := by
  unfold PeerSlot.add
  split
  · next closed => exact .refused closed rfl
  next opened =>
  split
  · next e held =>
    have current := PeerSlot.current_of_entry held
    dsimp only
    unfold PeerEntry.installConnection
    split
    · next same => exact .again _ current (eq_of_beq same) rfl rfl
    next differs =>
    have differs : e.active.conn.stableId ≠ conn.stableId := fun same =>
      differs (beq_of_eq same)
    split
    · next kept => exact .loses _ current kept.1 differs kept.2 rfl rfl
    next replaced =>
    refine .wins _ opened current differs ?_ rfl rfl
    rcases not_and_or.mp replaced with closed | higher
    · exact .inl (not_not.mp closed)
    · exact .inr (BitVec.not_le.mp higher)
  · next vacant => exact .first opened (by rw [PeerSlot.current, vacant, Option.map_none]) rfl rfl

/-- A report about another connection than the current one does nothing. -/
theorem PeerSlot.removeConnection_stale {s : PeerSlot} {current : Connection} {stableId : Nat}
    (held : s.current = some current) (stale : stableId ≠ current.stableId) :
    s.removeConnection (some stableId) = (none, s) := by
  obtain ⟨e, entry, rfl⟩ := Option.map_eq_some_iff.mp held
  unfold PeerSlot.removeConnection
  rw [entry]
  exact if_neg (by simpa using stale)

theorem PeerSlot.removeConnection_cases (s : PeerSlot) (stableId : Option Nat) :
    (s.removeConnection stableId).2 = s ∨
      (s.removeConnection stableId).2 = { s with entry := none } := by
  unfold PeerSlot.removeConnection
  split
  · split
    · exact .inr rfl
    · exact .inl rfl
  · exact .inl rfl

/-! ## One step -/

variable {w : Wiring} {s s' : Ends} {a : SelectionAct} {out : SelectionOut}

/-- What a step does to the slot of one end. -/
inductive SlotChange (w : Wiring) (s : Ends) (a : SelectionAct) (side : Side) (slot' : PeerSlot) :
    Prop
  | same (elsewhere : side ≠ a.side) (same : slot' = s.slots side)
  | registers (c : Nat) (id : EndpointId) (network : Name) (act : a = .register side c id network)
      (member : c ∈ w.conns) (added : Added (s.slots side) (w.conn side c) slot')
  | observes (c : Nat) (act : a = .observe side c) (member : c ∈ w.conns)
      (closed : w.conn side.other c ∈ (s.slots side.other).closed)
      (after : slot' = { s.slots side with closed := insert (w.conn side c) (s.slots side).closed })
  | drops (c : Nat) (act : a = .drop side c) (member : c ∈ w.conns)
      (after : slot' = { s.slots side with closed := insert (w.conn side c) (s.slots side).closed })
  | reports (c : Nat) (act : a = .report side c) (member : c ∈ w.conns)
      (closed : w.conn side c ∈ (s.slots side).closed)
      (after : slot' = ((s.slots side).removeConnection (some (w.stableId side c))).2)

theorem Ends.slots_setSlot (s : Ends) (side i : Side) (slot : PeerSlot) :
    (s.setSlot side slot).slots i = if i = side then slot else s.slots i :=
  Function.update_apply ..

theorem selectionStep_slot (step : selectionStep w s a out s') (side : Side) :
    SlotChange w s a side (s'.slots side) := by
  -- a step of the other end leaves this one alone
  have elsewhere : ∀ {slot : PeerSlot}, side ≠ a.side →
      SlotChange w s a side ((s.setSlot a.side slot).slots side) := by
    intro slot other
    exact .same other (by rw [Ends.slots_setSlot, if_neg other])
  have here : ∀ (slot : PeerSlot), (s.setSlot side slot).slots side = slot := by
    intro slot
    rw [Ends.slots_setSlot, if_pos rfl]
  cases a with
  | register i c id network =>
    obtain ⟨member, taken⟩ := Option.ite_none_right_eq_some.mp step
    cases taken
    rcases eq_or_ne side i with rfl | other
    · rw [here]
      exact .registers c id network rfl member (PeerSlot.add_cases _ _ id network)
    · exact elsewhere other
  | observe i c =>
    obtain ⟨⟨member, closed⟩, taken⟩ := Option.ite_none_right_eq_some.mp step
    cases taken
    rcases eq_or_ne side i with rfl | other
    · exact .observes c rfl member closed (here _)
    · exact elsewhere other
  | drop i c =>
    obtain ⟨member, taken⟩ := Option.ite_none_right_eq_some.mp step
    cases taken
    rcases eq_or_ne side i with rfl | other
    · exact .drops c rfl member (here _)
    · exact elsewhere other
  | report i c =>
    obtain ⟨⟨member, closed⟩, taken⟩ := Option.ite_none_right_eq_some.mp step
    cases taken
    rcases eq_or_ne side i with rfl | other
    · exact .reports c rfl member closed (here _)
    · exact elsewhere other

/-- Connection objects of one end differ in their local ids. -/
theorem Wiring.conn_inj (member : c ∈ w.conns) (member' : c' ∈ w.conns)
    (same : (w.conn side c).stableId = (w.conn side c').stableId) : c = c' :=
  w.stable_injective side c member c' member' same

/-- Every selected connection is one of those the peers share. -/
def Ends.Known (w : Wiring) (s : Ends) : Prop :=
  ∀ side current, (s.slots side).current = some current → ∃ c ∈ w.conns, current = w.conn side c

theorem Ends.Known.step (known : s.Known w) (step : selectionStep w s a out s') : s'.Known w := by
  intro side current selected
  cases selectionStep_slot step side with
  | same elsewhere same => exact known side current (same ▸ selected)
  | registers c id network act member added =>
    cases added with
    | refused _ same => exact known side current (same ▸ selected)
    | first _ _ now _ | wins old _ _ _ _ now _ =>
      exact ⟨c, member, Option.some.inj (selected.symm.trans now)⟩
    | again old held _ now _ | loses old held _ _ _ now _ =>
      exact known side current (held.trans (now.symm.trans selected))
  | observes c act member closed after | drops c act member after =>
    rw [after] at selected
    exact known side current selected
  | reports c act member closed after =>
    rw [after] at selected
    rcases PeerSlot.removeConnection_cases (s.slots side) (some (w.stableId side c)) with
      kept | gone
    · exact known side current (kept ▸ selected)
    · rw [gone] at selected
      cases selected

/-- What the selection rule may do in one step, at either end. -/
structure SelectsSafely (w : Wiring) (e : SelectionEntry) : Prop where
  /-- A registration closes a live connection only in favour of a live lower one. -/
  outranked : ∀ side c id network x, e.act = .register side c id network →
    x ∉ (e.before.slots side).closed → x ∈ (e.after.slots side).closed →
    ∃ winner, (e.after.slots side).current = some winner ∧
      winner ∉ (e.after.slots side).closed ∧ winner.selectionId < x.selectionId
  /-- A live selected connection gives way to a lower one only. -/
  keeps : ∀ side old, (e.before.slots side).current = some old →
    old ∉ (e.before.slots side).closed →
    ∃ new, (e.after.slots side).current = some new ∧ (new = old ∨ new.selectionId < old.selectionId)
  /-- Whatever becomes the selected connection is not closed. -/
  open_ : ∀ side conn, (e.after.slots side).current = some conn →
    (e.before.slots side).current ≠ some conn → conn ∉ (e.after.slots side).closed
  /-- The report of a connection that is not the current one changes nothing. -/
  stale : ∀ side c conn, e.act = .report side c → (e.before.slots side).current = some conn →
    conn ≠ w.conn side c → e.after.slots side = e.before.slots side

/-- Shared connections with one local id or one selection id are the same. -/
theorem Ends.Known.rank (known : s.Known w) (held : (s.slots side).current = some old)
    (member : c ∈ w.conns) (differs : old.stableId ≠ (w.conn side c).stableId) :
    old.selectionId ≠ (w.conn side c).selectionId := by
  obtain ⟨c', member', rfl⟩ := known side old held
  intro same
  obtain rfl := w.selection_injective c' member' c member same
  exact differs rfl

theorem not_mem_insert {conn old : Connection} {closed : Finset Connection}
    (differs : conn.stableId ≠ old.stableId) (opened : conn ∉ closed) :
    conn ∉ insert old closed := by
  rw [Finset.mem_insert]
  rintro (same | older)
  · exact differs (congrArg Connection.stableId same)
  · exact opened older

theorem selectsSafely_of_step (known : s.Known w) (step : selectionStep w s a out s') :
    SelectsSafely w ⟨s, a, out, s'⟩ := by
  refine ⟨fun side c id network x act live closed => ?_, fun side old held live => ?_,
    fun side conn selected new => ?_, fun side c conn act held differs => ?_⟩
  · cases selectionStep_slot step side with
    | same elsewhere same => exact absurd (same ▸ closed) live
    | registers c' id' network' act' member added =>
      cases added with
      | refused _ same => exact absurd (same ▸ closed) live
      | first _ _ _ closes | again _ _ _ _ closes => exact absurd (closes ▸ closed) live
      | loses old held live' differs lower now closes =>
        rw [closes] at closed
        obtain rfl := (Finset.mem_insert.mp closed).resolve_right live
        have rank := known.rank held member differs
        exact ⟨old, now, closes ▸ not_mem_insert differs live', BitVec.lt_of_le_ne lower rank⟩
      | wins old opened held differs higher now closes =>
        rw [closes] at closed
        obtain rfl := (Finset.mem_insert.mp closed).resolve_right live
        exact ⟨w.conn side c', now, closes ▸ not_mem_insert differs.symm opened,
          higher.resolve_left live⟩
    | observes _ act' _ _ _ | drops _ act' _ _ | reports _ act' _ _ _ => cases act.symm.trans act'
  · have kept : ∀ {slot : PeerSlot}, slot.current = (s.slots side).current →
        ∃ new, slot.current = some new ∧ (new = old ∨ new.selectionId < old.selectionId) :=
      fun same => ⟨old, same.trans held, .inl rfl⟩
    cases selectionStep_slot step side with
    | same elsewhere same => exact kept (congrArg PeerSlot.current same)
    | registers c id network act member added =>
      cases added with
      | refused _ same => exact kept (congrArg PeerSlot.current same)
      | first _ vacant _ _ => cases vacant.symm.trans held
      | again _ held' _ now _ | loses _ held' _ _ _ now _ => exact kept (now.trans held'.symm)
      | wins _ _ held' _ higher now _ =>
        cases held'.symm.trans held
        exact ⟨_, now, .inr (higher.resolve_left live)⟩
    | observes _ _ _ _ after | drops _ _ _ after => exact kept (by rw [after]; rfl)
    | reports c act member closed after =>
      -- the report is of a closed connection, so not of this one
      obtain ⟨x, shared, rfl⟩ := known side old held
      have stale : w.stableId side c ≠ (w.conn side x).stableId := by
        intro same
        obtain rfl := w.conn_inj shared member same.symm
        exact live closed
      rw [PeerSlot.removeConnection_stale held stale] at after
      exact kept (congrArg PeerSlot.current after)
  · cases selectionStep_slot step side with
    | same elsewhere same => exact absurd (same ▸ selected) new
    | registers c id network act member added =>
      cases added with
      | refused _ same => exact absurd (same ▸ selected) new
      | first opened _ now closes =>
        cases selected.symm.trans now
        exact closes ▸ opened
      | again old held _ now _ | loses old held _ _ _ now _ =>
        exact absurd (held.trans (now.symm.trans selected)) new
      | wins old opened held differs _ now closes =>
        cases selected.symm.trans now
        exact closes ▸ not_mem_insert differs.symm opened
    | observes c act member closed after | drops c act member after =>
      rw [after] at selected
      exact absurd selected new
    | reports c act member closed after =>
      dsimp only at selected
      rw [after] at selected
      rcases PeerSlot.removeConnection_cases (s.slots side) (some (w.stableId side c)) with
        kept | gone
      · exact absurd (kept ▸ selected) new
      · rw [gone] at selected
        cases selected
  · cases selectionStep_slot step side with
    | same elsewhere same => exact same
    | registers _ _ _ act' _ _ | observes _ act' _ _ _ | drops _ act' _ _ =>
      cases act.symm.trans act'
    | reports c' act' member closed after =>
      cases act.symm.trans act'
      obtain ⟨x, shared, rfl⟩ := known side conn held
      have stale : w.stableId side c ≠ (w.conn side x).stableId := fun same =>
        differs (congrArg (w.conn side) (w.conn_inj shared member same.symm))
      dsimp only
      rw [after, PeerSlot.removeConnection_stale held stale]

/-! ## Runs -/

section

variable {m : Nat}

/-- The lowest connection the peers share. -/
structure Wiring.Lowest (w : Wiring) (m : Nat) : Prop where
  shared : m ∈ w.conns
  least : ∀ c ∈ w.conns, w.selectionId m ≤ w.selectionId c

/-- Neither end has closed `m`. -/
def Ends.Up (w : Wiring) (m : Nat) (s : Ends) : Prop :=
  ∀ side, w.conn side m ∉ (s.slots side).closed

/-- This end has selected `m`. -/
def Ends.Selected (w : Wiring) (m : Nat) (side : Side) (s : Ends) : Prop :=
  (s.slots side).current = some (w.conn side m)

section

variable (lowest : w.Lowest m) (known : s.Known w) (up : s.Up w m)

include lowest known up

/-- The rule never closes the lowest connection: nothing shared outranks it. -/
theorem Ends.Up.step (step : selectionStep w s a out s') (kept : ∀ side, a ≠ .drop side m) :
    s'.Up w m := by
  intro side closed
  have other : ∀ c, c ∈ w.conns → w.conn side m ∈ insert (w.conn side c) (s.slots side).closed →
      m = c := by
    intro c member closed
    have same := (Finset.mem_insert.mp closed).resolve_right (up side)
    exact w.conn_inj lowest.shared member (congrArg Connection.stableId same)
  cases selectionStep_slot step side with
  | same elsewhere same => exact up side (same ▸ closed)
  | registers c id network act member added =>
    obtain ⟨winner, selected, -, lower⟩ :=
      (selectsSafely_of_step known step).outranked side c id network _ act (up side) closed
    obtain ⟨c', shared, rfl⟩ := known.step step side winner selected
    exact BitVec.not_le.mpr lower (lowest.least c' shared)
  | observes c act member elsewhere after =>
    rw [after] at closed
    obtain rfl := other c member closed
    exact up side.other elsewhere
  | drops c act member after =>
    rw [after] at closed
    obtain rfl := other c member closed
    exact kept side act
  | reports c act member _ after =>
    rw [after] at closed
    rcases PeerSlot.removeConnection_cases (s.slots side) (some (w.stableId side c)) with
      same | gone
    · exact up side (same ▸ closed)
    · rw [gone] at closed
      exact up side closed

/-- Once selected, the lowest connection stays selected. -/
theorem Ends.Selected.step (selected : s.Selected w m side) (step : selectionStep w s a out s') :
    s'.Selected w m side := by
  obtain ⟨new, now, rfl | lower⟩ :=
    (selectsSafely_of_step known step).keeps side _ selected (up side)
  · exact now
  · obtain ⟨c, shared, rfl⟩ := known.step step side new now
    exact absurd (lowest.least c shared) (BitVec.not_le.mpr lower)

/-- Registering the lowest connection selects it. -/
theorem selected_of_register {side : Side} {id : EndpointId} {network : Name} (up' : s'.Up w m)
    (step : selectionStep w s (.register side m id network) out s') : s'.Selected w m side := by
  cases selectionStep_slot step side with
  | same elsewhere _ => exact absurd rfl elsewhere
  | registers c id' network' act member added =>
    cases act
    cases added with
    | refused closed _ => exact absurd closed (up side)
    | first _ _ now _ | wins _ _ _ _ _ now _ => exact now
    | again old held same now _ =>
      obtain ⟨c, shared, rfl⟩ := known side old held
      obtain rfl := w.conn_inj shared lowest.shared same
      exact now
    | loses _ _ _ _ _ _ closes => exact absurd (closes ▸ Finset.mem_insert_self _ _) (up' side)
  | observes _ act _ _ _ | drops _ act _ _ | reports _ act _ _ _ => cases act

end

/-- `side` has registered the connection `c`. -/
def Registered (h : List SelectionEntry) (side : Side) (c : Nat) : Prop :=
  ∃ e ∈ h, ∃ id network, e.act = .register side c id network

variable {h : List SelectionEntry}

/-- What holds along a run in which the lowest connection stays up. -/
structure Ends.Inv (w : Wiring) (m : Nat) (h : List SelectionEntry) (s : Ends) : Prop where
  known : s.Known w
  up : s.Up w m
  selected : ∀ side, Registered h side m → s.Selected w m side

theorem run_selection (lowest : w.Lowest m) (run : Run (selectionStep w) .start h s)
    (kept : ∀ e ∈ h, ∀ side, e.act ≠ .drop side m) : s.Inv w m h := by
  refine run.invariant kept ⟨nofun, fun side => Finset.notMem_empty _, ?_⟩
    fun _ _ step kept inv => ?_
  · rintro side ⟨e, member, -⟩
    cases member
  · have up := inv.up.step lowest inv.known step kept
    refine ⟨inv.known.step step, up, ?_⟩
    rintro side ⟨e, member, id, network, act⟩
    rcases mem_snoc_cases member with older | rfl
    · exact (inv.selected side ⟨e, older, id, network, act⟩).step lowest inv.known inv.up step
    · cases act
      exact selected_of_register lowest inv.known inv.up up step

/-- **Duplicate connections.** While the lowest connection is not lost, neither end closes
it, an end that has registered it keeps it selected, and two ends that have registered
everything select the same one. No step closes a live connection but in favour of a live
lower one, selects a closed one, or lets the report of an old connection remove a newer. -/
theorem selection_converges (lowest : w.Lowest m) (run : Run (selectionStep w) .start h s)
    (kept : ∀ e ∈ h, ∀ side, e.act ≠ .drop side m) :
    (∀ pre e post, h = pre ++ e :: post → SelectsSafely w e ∧ e.after.Up w m ∧
      ∀ side, Registered (pre ++ [e]) side m → e.after.Selected w m side) ∧
    ((∀ side, ∀ c ∈ w.conns, Registered h side c) →
      ∃ c ∈ w.conns, ∀ side, s.Selected w c side) := by
  constructor
  · rintro pre e post rfl
    obtain ⟨before, step, -⟩ := run.split rfl
    have earlier : ∀ e' ∈ pre ++ [e], ∀ side, e'.act ≠ .drop side m := fun e' member =>
      kept e' (by
        rcases List.mem_append.mp member with older | newest
        · exact List.mem_append_left _ older
        · cases List.mem_singleton.mp newest
          exact List.mem_append_right _ List.mem_cons_self)
    have inv := run_selection lowest before fun e' member =>
      earlier e' (List.mem_append_left _ member)
    have after := run_selection lowest (before.snoc step) earlier
    exact ⟨selectsSafely_of_step inv.known step, after.up, after.selected⟩
  · intro registered
    have inv := run_selection lowest run kept
    exact ⟨m, lowest.shared, fun side => inv.selected side (registered side m lowest.shared)⟩

end

/-! ## Two dials that cross -/

/-- Two connections; the objects are numbered the other way round at the right end. -/
def crossed : Wiring where
  conns := {0, 1}
  selectionId c := BitVec.ofNat 256 c
  stableId side c := match side with
    | .left => c
    | .right => 1 - c
  selection_injective := by decide
  stable_injective side := by cases side <;> decide

/-- The left end registers the lower one first and closes the other, which the right end
has selected. Both end up on the same connection. -/
theorem selection_converges_crossed :
    ∃ h s, crossed.Lowest 0 ∧ Run (selectionStep crossed) .start h s ∧
      ∃ c ∈ crossed.conns, ∀ side, s.Selected crossed c side := by
  have lowest : crossed.Lowest 0 := ⟨by decide, by decide⟩
  have run := run_execute (f := fun s a => SelectionAct.run crossed s a) (s := .start)
    [.register .left 0 1 ['n'], .register .right 1 2 ['n'], .register .left 1 1 ['n'],
      .observe .right 1, .report .right 1, .register .right 0 2 ['n']] rfl
  refine ⟨_, _, lowest, run, (selection_converges lowest run (by simp)).2 ?_⟩
  intro side c member
  rcases Finset.mem_insert.mp member with rfl | last
  · cases side with
    | left => exact ⟨_, List.mem_of_getElem? (i := 0) rfl, _, _, rfl⟩
    | right => exact ⟨_, List.mem_of_getElem? (i := 5) rfl, _, _, rfl⟩
  · obtain rfl := Finset.mem_singleton.mp last
    cases side with
    | left => exact ⟨_, List.mem_of_getElem? (i := 2) rfl, _, _, rfl⟩
    | right => exact ⟨_, List.mem_of_getElem? (i := 1) rfl, _, _, rfl⟩

end Rayfish
