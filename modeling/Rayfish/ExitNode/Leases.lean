import Mathlib.Data.List.MinMax
import Rayfish.ExitNode.Ipv4

/-!
# Leases of the IPv4 exit

A gateway gives every client of its IPv4 exit an address of its pool and keeps the table in a
file (`exit_node/ipv4.rs`). `exit_leases` says what holds along every run with failing saves
and restarts: the two maps are inverse to each other and stay inside the pool, a failed
allocation changes neither, and an address only goes to another owner once it has been idle.
The last part needs that a client sends through an address that the file on disk also gives to
it: a save that fails after the file was replaced leaves file and table apart
(`lease_reassigned_by_failed_save`).
-/

namespace Rayfish

open Lib

/-! ## The table -/

/-- 10.65.0.0. -/
def serverNet : Ipv4Addr := 0x0a410000

def serverMask : Ipv4Addr := BitVec.allOnes 32 <<< (32 - 16)

def maxLeases : Nat := 65534

def leaseIdleExpiry : Nat := 30 * 24 * 60 * 60

def restartGrace : Nat := 7 * 24 * 60 * 60

def isServerAddr (ip : Ipv4Addr) : Bool := ip &&& serverMask == serverNet

def leaseAddress (index : Nat) : Ipv4Addr := serverNet + 1 + BitVec.ofNat 32 index

structure Lease where
  peer : Ipv6Addr
  network : String
  deriving DecidableEq

structure LeaseSlot where
  lease : Lease
  /-- Unix seconds. -/
  lastUsed : Nat

structure Leased where
  addr : Ipv4Addr
  lastUsed : Nat
  deriving DecidableEq

inductive LeaseError where
  | uninitialized
  | exhausted
  | invalidLeases
  | io
  | json
  | save
  | packet

/-- The lease file. -/
inductive LeaseFile where
  | missing
  | garbled
  | slots (slots : List LeaseSlot)

structure ExitNat where
  /-- Whether the path of the lease file is set. -/
  initialized : Bool
  slots : List LeaseSlot
  outbound : Lease → Option Leased
  inbound : Ipv4Addr → Option Lease

namespace ExitNat

def empty : ExitNat := ⟨false, [], fun _ => none, fun _ => none⟩

/-- The loop of `initialize`; it stops at an owner that occurs twice. -/
def load (floor : Nat) : List (LeaseSlot × Nat) → (Lease → Option Leased) →
    (Ipv4Addr → Option Lease) → Option ((Lease → Option Leased) × (Ipv4Addr → Option Lease))
  | [], outbound, inbound => some (outbound, inbound)
  | (slot, index) :: rest, outbound, inbound =>
    if (outbound slot.lease).isSome then none
    else
      load floor rest
        (Function.update outbound slot.lease (some ⟨leaseAddress index, max slot.lastUsed floor⟩))
        (Function.update inbound (leaseAddress index) (some slot.lease))

variable (nat : ExitNat)

/-- Both maps emptied. -/
def clear : ExitNat :=
  { nat with outbound := fun _ => none, inbound := fun _ => none }

def loadSlots (slots : List LeaseSlot) (now : Nat) : Except LeaseError Unit × ExitNat :=
  if slots.length > maxLeases then (.error .invalidLeases, nat)
  else
    match load (now - (leaseIdleExpiry - restartGrace)) slots.zipIdx nat.outbound nat.inbound with
    | none => (.error .invalidLeases, nat.clear)
    | some (outbound, inbound) => (.ok (), ⟨true, slots, outbound, inbound⟩)

def initializeLeases (file : LeaseFile) (readable : Bool) (now : Nat) :
    Except LeaseError Unit × ExitNat :=
  if nat.initialized then (.ok (), nat)
  else if !readable then (.error .io, nat)
  else
    match file with
    | .missing => nat.loadSlots [] now
    | .garbled => (.error .json, nat)
    | .slots slots => nat.loadSlots slots now

/-- The client's lease is stamped as it sends. -/
def stampLease (lease : Lease) (leased : Leased) (now : Nat) : ExitNat :=
  { nat with outbound := Function.update nat.outbound lease (some ⟨leased.addr, now⟩) }

/-- The stored stamps brought up to date. -/
def stamped : List LeaseSlot :=
  nat.slots.map fun slot =>
    match nat.outbound slot.lease with
    | some leased => { slot with lastUsed := leased.lastUsed }
    | none => slot

/-- The slot to use: the one idle for longest past the expiry, else a new one. -/
def pick (slots : List LeaseSlot) (now : Nat) : Option Nat :=
  let expired := slots.zipIdx.filter fun entry => now - entry.1.lastUsed ≥ leaseIdleExpiry
  match List.argmin (fun entry => entry.1.lastUsed) expired with
  | some entry => some entry.2
  | none => if slots.length < maxLeases then some slots.length else none

/-- The slots with a new owner at `index`, replaced or pushed. -/
def withOwner (slots : List LeaseSlot) (index : Nat) (fresh : LeaseSlot) : List LeaseSlot :=
  if index < slots.length then slots.set index fresh else slots ++ [fresh]

/-- `outbound.remove` of the owner that had the slot before, if there was one. -/
def displace (outbound : Lease → Option Leased) : Option Lease → Lease → Option Leased
  | some previous => Function.update outbound previous none
  | none => outbound

/-- The table after a save. -/
def grant (lease : Lease) (index now : Nat) : ExitNat :=
  let outbound := displace nat.outbound (nat.stamped.map (·.lease))[index]?
  { initialized := true
    slots := withOwner nat.stamped index ⟨lease, now⟩
    outbound := Function.update outbound lease (some ⟨leaseAddress index, now⟩)
    inbound := Function.update nat.inbound (leaseAddress index) (some lease) }

end ExitNat

open ExitNat

/-- How writing the file ends. It is replaced by a rename and then its directory is synced, so
a write may fail with the new file in place. -/
inductive Save where
  | done
  | failed (installed : Bool)
  deriving DecidableEq

/-- The gateway's table, the file on disk and the clock. -/
structure LeaseHost where
  nat : ExitNat
  file : LeaseFile
  clock : Nat

namespace LeaseHost

def allocate (s : LeaseHost) (lease : Lease) (save : Save) :
    Except LeaseError Ipv4Addr × LeaseHost :=
  match s.nat.outbound lease with
  | some leased => (.ok leased.addr, s)
  | none =>
    if !s.nat.initialized then (.error .uninitialized, s)
    else
      match ExitNat.pick s.nat.stamped s.clock with
      | none => (.error .exhausted, { s with nat := { s.nat with slots := s.nat.stamped } })
      | some index =>
        let written := ExitNat.withOwner s.nat.stamped index ⟨lease, s.clock⟩
        match save with
        | .failed installed =>
          -- the slots are put back, with the stamps that were just brought up to date
          (.error .save, { s with
            nat := { s.nat with slots := s.nat.stamped }
            file := if installed then .slots written else s.file })
        | .done =>
          (.ok (leaseAddress index),
            { s with nat := s.nat.grant lease index s.clock, file := .slots written })

/-- The address an outbound packet of `lease` leaves from. -/
def resolve (s : LeaseHost) (lease : Lease) (save : Save) :
    Except LeaseError Ipv4Addr × LeaseHost :=
  match s.nat.outbound lease with
  | some leased =>
    (.ok leased.addr, { s with nat := s.nat.stampLease lease leased s.clock })
  | none => s.allocate lease save

def outbound (s : LeaseHost) (packet : Bytes) (lease : Lease) (save : Save) :
    Except LeaseError Bytes × LeaseHost :=
  match s.resolve lease save with
  | (.error error, s) => (.error error, s)
  | (.ok addr, s) =>
    match rewrite packet wireClientAddr addr with
    | some packet => (.ok packet, s)
    | none => (.error .packet, s)

end LeaseHost

/-! ## Runs -/

inductive LeaseCall where
  | initializeLeases (readable : Bool)
  | allocate (lease : Lease) (save : Save)
  | outbound (packet : Bytes) (lease : Lease) (save : Save)
  | returnLease (addr : Ipv4Addr)
  /-- The daemon ends; a new one starts with an empty table. -/
  | restart
  deriving DecidableEq

inductive LeaseOut where
  | done
  | addr (addr : Ipv4Addr)
  | packet (packet : Bytes)
  | lease (lease : Option Lease)
  | error (error : LeaseError)

structure LeaseAct where
  now : Nat
  call : LeaseCall

def LeaseHost.run (s : LeaseHost) : LeaseCall → LeaseOut × LeaseHost
  | .initializeLeases readable =>
    match s.nat.initializeLeases s.file readable s.clock with
    | (.ok _, nat) => (.done, { s with nat })
    | (.error error, nat) => (.error error, { s with nat })
  | .allocate lease save =>
    match s.allocate lease save with
    | (.ok addr, s) => (.addr addr, s)
    | (.error error, s) => (.error error, s)
  | .outbound packet lease save =>
    match s.outbound packet lease save with
    | (.ok packet, s) => (.packet packet, s)
    | (.error error, s) => (.error error, s)
  | .returnLease addr => (.lease (s.nat.inbound addr), s)
  | .restart => (.done, { s with nat := .empty })

/-- One call at its time; the clock does not go back. -/
def LeaseAct.run (s : LeaseHost) (a : LeaseAct) : Option (LeaseOut × LeaseHost) :=
  if a.now < s.clock then none else some ({ s with clock := a.now }.run a.call)

def leaseStep : StepRel LeaseHost LeaseAct LeaseOut :=
  fun s a out s' => LeaseAct.run s a = some (out, s')

abbrev LeaseEntry := Entry LeaseHost LeaseAct LeaseOut

/-- A call by which `lease` asks for its address. -/
def LeaseCall.Asks (call : LeaseCall) (lease : Lease) : Prop :=
  (∃ save, call = .allocate lease save) ∨ ∃ packet save, call = .outbound packet lease save

/-- Everything a call can do to the table and the file. -/
inductive LeaseOutcome (s : LeaseHost) (call : LeaseCall) :
    LeaseOut → ExitNat → LeaseFile → Prop where
  | kept :
      (∀ packet lease save, call = .outbound packet lease save → s.nat.outbound lease = none) →
      LeaseOutcome s call out s.nat s.file
  | refused : call.Asks lease → s.nat.outbound lease = none → s.nat.initialized = true →
      LeaseOutcome s call out { s.nat with slots := s.nat.stamped } s.file
  /-- A save failed after it had replaced the file. -/
  | replaced : call.Asks lease → s.nat.outbound lease = none → s.nat.initialized = true →
      ExitNat.pick s.nat.stamped s.clock = some index →
      LeaseOutcome s call out { s.nat with slots := s.nat.stamped }
        (.slots (ExitNat.withOwner s.nat.stamped index ⟨lease, s.clock⟩))
  | granted : call.Asks lease → s.nat.outbound lease = none → s.nat.initialized = true →
      ExitNat.pick s.nat.stamped s.clock = some index → out ≠ .error .save →
      LeaseOutcome s call out (s.nat.grant lease index s.clock)
        (.slots (ExitNat.withOwner s.nat.stamped index ⟨lease, s.clock⟩))
  | sent : call = .outbound packet lease save → s.nat.outbound lease = some leased →
      out ≠ .error .save →
      LeaseOutcome s call out (s.nat.stampLease lease leased s.clock) s.file
  | cleared : (∀ lease, ¬call.Asks lease) → s.nat.initialized = false →
      LeaseOutcome s call out s.nat.clear s.file
  | started {slots : List LeaseSlot} {outbound : Lease → Option Leased}
      {inbound : Ipv4Addr → Option Lease} : (∀ lease, ¬call.Asks lease) →
      s.nat.initialized = false → (s.file = .missing ∧ slots = []) ∨ s.file = .slots slots →
      slots.length ≤ maxLeases →
      ExitNat.load (s.clock - (leaseIdleExpiry - restartGrace)) slots.zipIdx s.nat.outbound
        s.nat.inbound = some (outbound, inbound) →
      LeaseOutcome s call out ⟨true, slots, outbound, inbound⟩ s.file
  | restarted : call = .restart → LeaseOutcome s call out .empty s.file

/-! ## What is asked of it -/

/-- The client sent through the address. -/
def Uses (e : LeaseEntry) (lease : Lease) (addr : Ipv4Addr) : Prop :=
  (∃ packet save, e.act.call = .outbound packet lease save) ∧
    ∃ lastUsed, e.after.nat.outbound lease = some ⟨addr, lastUsed⟩

/-- The daemon took up the table from the file. -/
def StartsLeases (e : LeaseEntry) : Prop :=
  e.before.nat.initialized = false ∧ e.after.nat.initialized = true

/-- Who had the address last. -/
def lastOwner (addr : Ipv4Addr) (h : List LeaseEntry) : Option Lease :=
  h.foldl (fun owner e => (e.after.nat.inbound addr).or owner) none

/-- When the step takes an address from its last owner, each use by that owner lies back at
least the expiry, or the grace period if the daemon was started since. -/
def TakesIdle (h : List LeaseEntry) (e : LeaseEntry) : Prop :=
  ∀ addr owner owner', lastOwner addr h = some owner → e.after.nat.inbound addr = some owner' →
    owner ≠ owner' → ∀ pre use post, h = pre ++ use :: post → Uses use owner addr →
      use.act.now + leaseIdleExpiry ≤ e.act.now ∨
        ((∃ e' ∈ post ++ [e], StartsLeases e') ∧ use.act.now + restartGrace ≤ e.act.now)

/-- The file gives the address to the client. -/
def LeaseFile.Names (file : LeaseFile) (addr : Ipv4Addr) (lease : Lease) : Prop :=
  ∃ slots index, file = .slots slots ∧ addr = leaseAddress index ∧
    (slots.map (·.lease))[index]? = some lease

/-- A client with an address sends through it only while the file gives it that address too. -/
def SendsAsSaved (e : LeaseEntry) : Prop :=
  ∀ packet lease save leased, e.act.call = .outbound packet lease save →
    e.before.nat.outbound lease = some leased → e.before.file.Names leased.addr lease

/-! ## Addresses of the pool -/

variable {i t index : Nat} {lease owner : Lease} {call : LeaseCall} {s s' : LeaseHost}
  {addr : Ipv4Addr}

theorem toNat_leaseAddress (small : i < maxLeases) : (leaseAddress i).toNat = 0x0a410001 + i := by
  have small : i < 65534 := small
  have base : (serverNet + 1).toNat = 0x0a410001 := rfl
  rw [leaseAddress, BitVec.toNat_add, BitVec.toNat_ofNat]
  omega

theorem leaseAddress_inj (small : i < maxLeases) (small' : j < maxLeases)
    (same : leaseAddress i = leaseAddress j) : i = j := by
  have numbers := congrArg BitVec.toNat same
  rw [toNat_leaseAddress small, toNat_leaseAddress small'] at numbers
  exact Nat.add_left_cancel numbers

theorem isServerAddr_leaseAddress (small : i < maxLeases) :
    isServerAddr (leaseAddress i) = true := by
  have high : leaseAddress i >>> 16 = 0x0a41 := by
    have small' : i < 65534 := small
    apply BitVec.eq_of_toNat_eq
    rw [BitVec.toNat_ushiftRight, toNat_leaseAddress small]
    show _ = 0x0a41
    omega
  have masked : leaseAddress i &&& serverMask = serverNet := by
    rw [serverMask, ← BitVec.shiftLeft_ushiftRight, high]
    rfl
  rw [isServerAddr, masked]
  rfl

/-! ## The maps and the list of owners -/

/-- The two maps say who owns which address: the one at the same place of the list. -/
structure Represents (owners : List Lease) (outbound : Lease → Option Leased)
    (inbound : Ipv4Addr → Option Lease) : Prop where
  sized : owners.length ≤ maxLeases
  out : ∀ lease addr, (∃ t, outbound lease = some ⟨addr, t⟩) ↔
    ∃ k, owners[k]? = some lease ∧ addr = leaseAddress k
  inn : ∀ addr lease, inbound addr = some lease ↔
    ∃ k, owners[k]? = some lease ∧ addr = leaseAddress k

namespace Represents

variable {owners : List Lease} {outbound : Lease → Option Leased}
  {inbound : Ipv4Addr → Option Lease} {lease : Lease} {index k t : Nat}

theorem empty : Represents [] (fun _ => none) (fun _ => none) :=
  ⟨Nat.zero_le _, by simp, by simp⟩

variable (rep : Represents owners outbound inbound)

include rep

theorem lt_maxLeases (at' : owners[k]? = some lease) : k < maxLeases :=
  Nat.lt_of_lt_of_le (List.getElem?_eq_some_iff.mp at').1 rep.sized

theorem inverse (lease : Lease) (addr : Ipv4Addr) :
    (∃ t, outbound lease = some ⟨addr, t⟩) ↔ inbound addr = some lease :=
  (rep.out lease addr).trans (rep.inn addr lease).symm

theorem outbound_of_owner (at' : owners[k]? = some lease) :
    ∃ t, outbound lease = some ⟨leaseAddress k, t⟩ :=
  (rep.out lease (leaseAddress k)).mpr ⟨k, at', rfl⟩

/-- No client owns two addresses. -/
theorem unique (at' : owners[k]? = some lease) (again : owners[j]? = some lease) : k = j := by
  obtain ⟨t, first⟩ := rep.outbound_of_owner at'
  obtain ⟨t', second⟩ := rep.outbound_of_owner again
  rw [first] at second
  exact leaseAddress_inj (rep.lt_maxLeases at') (rep.lt_maxLeases again)
    (congrArg Leased.addr (Option.some.inj second))

/-- A client without an address owns none. -/
theorem not_owner (absent : outbound lease = none) : owners[k]? ≠ some lease := by
  intro at'
  obtain ⟨t, present⟩ := rep.outbound_of_owner at'
  rw [absent] at present
  cases present

/-- A new owner at `index`, in place of the old one if there was one. -/
theorem grant (absent : outbound lease = none) (sized : owners'.length ≤ maxLeases)
    (listed : ∀ k, owners'[k]? = if k = index then some lease else owners[k]?) (t : Nat) :
    Represents owners'
      (Function.update (displace outbound owners[index]?) lease (some ⟨leaseAddress index, t⟩))
      (Function.update inbound (leaseAddress index) (some lease)) := by
  have here : owners'[index]? = some lease := by rw [listed, if_pos rfl]
  have small : index < maxLeases := Nat.lt_of_lt_of_le (List.getElem?_eq_some_iff.mp here).1 sized
  have others : ∀ {k other}, other ≠ lease →
      (owners'[k]? = some other ↔ k ≠ index ∧ owners[k]? = some other) := by
    intro k other isNew
    rw [listed]
    split
    · next isHere => simp [isHere, isNew.symm]
    · next elsewhere => simp [elsewhere]
  refine ⟨sized, fun other addr => ?_, fun addr other => ?_⟩
  · by_cases isNew : other = lease
    · subst isNew
      rw [Function.update_self]
      constructor
      · rintro ⟨t', same⟩
        cases same
        exact ⟨index, here, rfl⟩
      · rintro ⟨k, at', rfl⟩
        rw [listed] at at'
        split at at'
        · next isHere => exact ⟨t, by rw [isHere]⟩
        · exact absurd at' (rep.not_owner absent)
    · rw [Function.update_of_ne isNew]
      by_cases displaced : owners[index]? = some other
      · -- the old owner of the address has none now
        rw [displaced, displace, Function.update_self]
        refine iff_of_false nofun ?_
        rintro ⟨k, at', _⟩
        obtain ⟨elsewhere, owned⟩ := (others isNew).mp at'
        exact elsewhere (rep.unique owned displaced)
      · have kept : displace outbound owners[index]? other = outbound other := by
          cases at' : owners[index]? with
          | none => rfl
          | some previous =>
            exact Function.update_of_ne (fun same => displaced (by rw [at', same])) _ _
        rw [kept, rep.out]
        refine exists_congr fun k => and_congr_left fun _ => ?_
        rw [others isNew]
        exact (and_iff_right_of_imp fun owned => by rintro rfl; exact displaced owned).symm
  · by_cases isHere : addr = leaseAddress index
    · subst isHere
      rw [Function.update_self]
      constructor
      · rintro ⟨⟩
        exact ⟨index, here, rfl⟩
      · rintro ⟨k, at', same⟩
        have bound : k < maxLeases := Nat.lt_of_lt_of_le (List.getElem?_eq_some_iff.mp at').1 sized
        obtain rfl := leaseAddress_inj small bound same
        rw [← at', here]
    · rw [Function.update_of_ne isHere, rep.inn]
      refine exists_congr fun k => and_congr_left ?_
      rintro rfl
      rw [listed, if_neg fun same => isHere (congrArg leaseAddress same)]

/-- Stamping a client's lease changes no owner. -/
theorem stamp (present : outbound lease = some leased) (t : Nat) :
    Represents owners (Function.update outbound lease (some ⟨leased.addr, t⟩)) inbound := by
  refine ⟨rep.sized, fun other addr => ?_, rep.inn⟩
  rw [← rep.out]
  by_cases same : other = lease
  · subst same
    rw [Function.update_self, present]
    constructor
    · rintro ⟨_, ⟨⟩⟩
      exact ⟨leased.lastUsed, rfl⟩
    · rintro ⟨_, ⟨⟩⟩
      exact ⟨t, rfl⟩
  · rw [Function.update_of_ne same]

end Represents

theorem getElem?_snoc (l : List α) (x : α) (k : Nat) :
    (l ++ [x])[k]? = if k = l.length then some x else l[k]? := by
  rcases Nat.lt_trichotomy k l.length with before | rfl | after
  · rw [List.getElem?_append_left before, if_neg before.ne]
  · simp
  · rw [if_neg after.ne', List.getElem?_eq_none (by simp; omega), List.getElem?_eq_none after.le]

/-- Loading appends the owners of the file, each stamped no earlier than the floor. -/
theorem load_represents {floor : Nat} {rest : List LeaseSlot} {owners : List Lease}
    {outbound outbound' : Lease → Option Leased} {inbound inbound' : Ipv4Addr → Option Lease}
    (rep : Represents owners outbound inbound) (sized : owners.length + rest.length ≤ maxLeases)
    (floored : ∀ lease leased, outbound lease = some leased → floor ≤ leased.lastUsed)
    (loaded : load floor (rest.zipIdx owners.length) outbound inbound = some (outbound', inbound'))
    :
    Represents (owners ++ rest.map (·.lease)) outbound' inbound' ∧
      ∀ lease leased, outbound' lease = some leased → floor ≤ leased.lastUsed := by
  induction rest generalizing owners outbound inbound with
  | nil =>
    cases loaded
    rw [List.map_nil, List.append_nil]
    exact ⟨rep, floored⟩
  | cons slot rest ih =>
    rw [List.zipIdx_cons, load] at loaded
    split at loaded
    · cases loaded
    next absent =>
    have absent : outbound slot.lease = none := by simpa using absent
    have beyond : owners[owners.length]? = none := List.getElem?_eq_none le_rfl
    have listed := getElem?_snoc owners slot.lease
    rw [List.length_cons] at sized
    have length : (owners ++ [slot.lease]).length = owners.length + 1 := by simp
    have pushed := rep.grant absent (by rw [length]; omega) listed (max slot.lastUsed floor)
    rw [beyond] at pushed
    have floored' : ∀ lease leased, Function.update outbound slot.lease
        (some ⟨leaseAddress owners.length, max slot.lastUsed floor⟩) lease = some leased →
        floor ≤ leased.lastUsed := by
      intro lease leased found
      rcases update_cases found with ⟨⟨⟩⟩ | found
      · exact le_max_right _ _
      · exact floored lease leased found
    have next := ih pushed (by rw [length]; omega) floored' (by rw [length]; exact loaded)
    rwa [List.append_assoc] at next

/-! ## One call -/

namespace ExitNat

variable {nat : ExitNat} {slots : List LeaseSlot} {index now : Nat}

theorem stamped_leases (nat : ExitNat) : nat.stamped.map (·.lease) = nat.slots.map (·.lease) := by
  rw [stamped, List.map_map]
  refine List.map_congr_left fun slot _ => ?_
  simp only [Function.comp_apply]
  split <;> rfl

/-- A stamp is the one of the client's lease. -/
theorem stamped_lastUsed (at' : nat.stamped[index]? = some slot)
    (present : nat.outbound slot.lease = some leased) : slot.lastUsed = leased.lastUsed := by
  rw [stamped, List.getElem?_map] at at'
  obtain ⟨old, _, rfl⟩ := Option.map_eq_some_iff.mp at'
  cases found : nat.outbound old.lease with
  | none => simp [found] at present
  | some other =>
    simp only [found] at present ⊢
    cases present
    rfl

theorem pick_some (h : pick slots now = some index) :
    (∃ slot, slots[index]? = some slot ∧ slot.lastUsed + leaseIdleExpiry ≤ now) ∨
      (index = slots.length ∧ slots.length < maxLeases) := by
  unfold pick at h
  simp only at h
  split at h
  · next entry oldest =>
    cases h
    have member := List.mem_filter.mp (List.argmin_mem oldest)
    have idle : now - entry.1.lastUsed ≥ leaseIdleExpiry := of_decide_eq_true member.2
    have positive : 0 < leaseIdleExpiry := by decide
    exact .inl ⟨entry.1, List.mem_zipIdx_iff_getElem?.mp member.1, by omega⟩
  · split at h
    · next room =>
      cases h
      exact .inr ⟨rfl, room⟩
    · cases h

/-- Picking stays within the list or just behind it. -/
theorem pick_le (h : pick slots now = some index) (sized : slots.length ≤ maxLeases) :
    index ≤ slots.length ∧ index < maxLeases := by
  rcases pick_some h with ⟨slot, at', _⟩ | ⟨rfl, room⟩
  · have before := (List.getElem?_eq_some_iff.mp at').1
    omega
  · exact ⟨le_rfl, room⟩

theorem withOwner_leases (inside : index ≤ slots.length) (k : Nat) :
    ((withOwner slots index ⟨lease, t⟩).map (·.lease))[k]? =
      if k = index then some lease else (slots.map (·.lease))[k]? := by
  unfold withOwner
  split
  · next before =>
    rw [List.map_set, List.getElem?_set]
    by_cases same : index = k
    · rw [if_pos same, if_pos same.symm, if_pos (by simpa using before)]
    · rw [if_neg same, if_neg (Ne.symm same)]
  · next after =>
    obtain rfl : index = slots.length := Nat.le_antisymm inside (Nat.not_lt.mp after)
    simpa using getElem?_snoc (slots.map (·.lease)) lease k

theorem length_withOwner (inside : index ≤ slots.length) (small : index < maxLeases)
    (sized : slots.length ≤ maxLeases) :
    (withOwner slots index fresh).length ≤ maxLeases := by
  unfold withOwner
  split
  · rwa [List.length_set]
  · rw [List.length_append, List.length_singleton]
    omega

end ExitNat

variable {save : Save} {slots : List LeaseSlot} {nat' : ExitNat} {out : LeaseOut}

theorem LeaseCall.Asks.outbound (asks : call.Asks lease)
    (same : call = .outbound packet lease' save) :
    lease' = lease := by
  rcases asks with ⟨save', rfl⟩ | ⟨packet', save', rfl⟩
  · cases same
  · cases same
    rfl

theorem allocate_outcome (asks : call.Asks lease) (absent : s.nat.outbound lease = none)
    (ran : s.allocate lease save = (result, s')) (out : LeaseOut)
    (saved : ∀ addr, result = .ok addr → out ≠ .error .save) :
    s'.clock = s.clock ∧ LeaseOutcome s call out s'.nat s'.file := by
  unfold LeaseHost.allocate at ran
  rw [absent] at ran
  simp only at ran
  split at ran
  · cases ran
    refine ⟨rfl, .kept ?_⟩
    intro packet lease' save' same
    rwa [asks.outbound same]
  · next initialized =>
    have initialized : s.nat.initialized = true := by simpa using initialized
    split at ran
    · cases ran
      exact ⟨rfl, .refused asks absent initialized⟩
    next index picked =>
    split at ran
    · next installed =>
      cases ran
      cases installed with
      | false => exact ⟨rfl, .refused asks absent initialized⟩
      | true => exact ⟨rfl, .replaced asks absent initialized picked⟩
    · cases ran
      exact ⟨rfl, .granted asks absent initialized picked (saved _ rfl)⟩

theorem loadSlots_outcome (other : ∀ lease, ¬call.Asks lease) (fresh : s.nat.initialized = false)
    (read : (s.file = .missing ∧ slots = []) ∨ s.file = .slots slots)
    (ran : s.nat.loadSlots slots s.clock = (result, nat')) (out : LeaseOut) :
    LeaseOutcome s call out nat' s.file := by
  unfold ExitNat.loadSlots at ran
  split at ran
  · cases ran
    exact .kept fun packet lease save same => absurd (.inr ⟨packet, save, same⟩) (other lease)
  next sized =>
  split at ran
  · cases ran
    exact .cleared other fresh
  · next outbound inbound loaded =>
    cases ran
    exact .started other fresh read (Nat.not_lt.mp sized) loaded

theorem initializeLeases_outcome
    (ran : s.nat.initializeLeases s.file readable s.clock = (result, nat')) (out : LeaseOut) :
    LeaseOutcome s (.initializeLeases readable) out nat' s.file := by
  have other : ∀ lease, ¬(LeaseCall.initializeLeases readable).Asks lease := by
    rintro lease (⟨_, same⟩ | ⟨_, _, same⟩) <;> cases same
  have kept : LeaseOutcome s (.initializeLeases readable) out s.nat s.file := .kept nofun
  unfold ExitNat.initializeLeases at ran
  split at ran
  · cases ran
    exact kept
  next fresh =>
  have fresh : s.nat.initialized = false := Bool.eq_false_iff.mpr fresh
  split at ran
  · cases ran
    exact kept
  split at ran
  · next missing => exact loadSlots_outcome other fresh (.inl ⟨missing, rfl⟩) ran out
  · cases ran
    exact kept
  · next slots saved => exact loadSlots_outcome other fresh (.inr saved) ran out

theorem resolve_outcome (packet : Bytes) (ran : s.resolve lease save = (result, s'))
    (out : LeaseOut) (saved : ∀ addr, result = .ok addr → out ≠ .error .save) :
    s'.clock = s.clock ∧ LeaseOutcome s (.outbound packet lease save) out s'.nat s'.file := by
  unfold LeaseHost.resolve at ran
  split at ran
  · next leased present =>
    cases ran
    exact ⟨rfl, .sent rfl present (saved _ rfl)⟩
  · next absent => exact allocate_outcome (.inr ⟨packet, save, rfl⟩) absent ran out saved

theorem run_outcome (ran : s.run call = (out, s')) :
    s'.clock = s.clock ∧ LeaseOutcome s call out s'.nat s'.file := by
  cases call with
  | initializeLeases readable =>
    rcases ended : s.nat.initializeLeases s.file readable s.clock with ⟨_ | _, nat'⟩
    all_goals
      rw [LeaseHost.run, ended] at ran
      cases ran
      exact ⟨rfl, initializeLeases_outcome ended _⟩
  | allocate lease save =>
    have asks : (LeaseCall.allocate lease save).Asks lease := .inl ⟨save, rfl⟩
    cases present : s.nat.outbound lease with
    | some leased =>
      rw [LeaseHost.run, LeaseHost.allocate, present] at ran
      cases ran
      exact ⟨rfl, .kept nofun⟩
    | none =>
      rcases ended : s.allocate lease save with ⟨_ | _, s₁⟩
      all_goals
        rw [LeaseHost.run, ended] at ran
        cases ran
        exact allocate_outcome asks present ended _ nofun
  | outbound packet lease save =>
    rw [LeaseHost.run, LeaseHost.outbound] at ran
    rcases resolved : s.resolve lease save with ⟨error | addr, s₁⟩
    · rw [resolved] at ran
      cases ran
      exact resolve_outcome packet resolved _ nofun
    · rw [resolved] at ran
      simp only at ran
      cases rewritten : rewrite packet wireClientAddr addr with
      | none | some packet' =>
        rw [rewritten] at ran
        cases ran
        exact resolve_outcome packet resolved _ fun _ _ => nofun
  | returnLease addr =>
    cases ran
    exact ⟨rfl, .kept nofun⟩
  | restart =>
    cases ran
    exact ⟨rfl, .restarted rfl⟩

theorem leaseStep_outcome (step : leaseStep s a out s') :
    s.clock ≤ a.now ∧ s'.clock = a.now ∧
      LeaseOutcome { s with clock := a.now } a.call out s'.nat s'.file := by
  unfold leaseStep LeaseAct.run at step
  split at step
  · cases step
  · next forward => exact ⟨Nat.not_lt.mp forward, run_outcome (Option.some.inj step)⟩

/-! ## The table along a run -/

/-- The maps fit the slots, and before it is set up the table is empty. -/
structure TableInv (nat : ExitNat) : Prop where
  represents : Represents (nat.slots.map (·.lease)) nat.outbound nat.inbound
  blank : nat.initialized = false → nat = .empty

theorem TableInv.empty : TableInv .empty := ⟨.empty, fun _ => rfl⟩

theorem TableInv.sized (inv : TableInv nat) : nat.stamped.length ≤ maxLeases := by
  have sized := inv.represents.sized
  rwa [← nat.stamped_leases, List.length_map] at sized

theorem TableInv.outcome {file' : LeaseFile} (inv : TableInv s.nat)
    (outcome : LeaseOutcome s call out nat' file') :
    TableInv nat' := by
  have restamped : s.nat.initialized = true →
      TableInv { s.nat with slots := s.nat.stamped } := by
    intro initialized
    refine ⟨?_, fun blank => absurd (initialized.symm.trans blank) (by decide)⟩
    rw [s.nat.stamped_leases]
    exact inv.represents
  cases outcome with
  | kept => exact inv
  | refused _ _ initialized | replaced _ _ initialized => exact restamped initialized
  | @granted lease index _ asks absent _ picked =>
    obtain ⟨inside, small⟩ := pick_le picked inv.sized
    have rep := inv.represents
    rw [← s.nat.stamped_leases] at rep
    refine ⟨rep.grant absent ?_ (withOwner_leases inside) s.clock, nofun⟩
    rw [List.length_map]
    exact length_withOwner inside small inv.sized
  | sent _ present =>
    refine ⟨inv.represents.stamp present s.clock, fun blank => ?_⟩
    rw [inv.blank blank] at present
    cases present
  | cleared _ blank =>
    rw [inv.blank blank]
    exact .empty
  | started _ blank _ sized loaded =>
    rw [inv.blank blank] at loaded
    have rep := (load_represents .empty (by simpa using sized) (by nofun) loaded).1
    exact ⟨rep, nofun⟩
  | restarted => exact .empty

theorem inbound_of_blank (inv : TableInv nat) (found : nat.inbound addr = some lease) :
    nat.initialized = true := by
  cases initialized : nat.initialized with
  | true => rfl
  | false =>
    rw [inv.blank initialized] at found
    cases found

/-- The owner of the slot that is picked has been idle. -/
theorem TableInv.idle_of_picked (inv : TableInv s.nat)
    (picked : pick s.nat.stamped s.clock = some index)
    (owned : (s.nat.slots.map (·.lease))[index]? = some owner) :
    ∃ t, s.nat.outbound owner = some ⟨leaseAddress index, t⟩ ∧ t + leaseIdleExpiry ≤ s.clock := by
  obtain ⟨t, present⟩ := inv.represents.outbound_of_owner owned
  refine ⟨t, present, ?_⟩
  rw [← s.nat.stamped_leases, List.getElem?_map] at owned
  obtain ⟨slot, at', rfl⟩ := Option.map_eq_some_iff.mp owned
  rcases pick_some picked with ⟨slot', at'', idle⟩ | ⟨rfl, _⟩
  · cases at'.symm.trans at''
    rwa [stamped_lastUsed at' present] at idle
  · rw [List.getElem?_eq_none le_rfl] at at'
    cases at'

theorem lastOwner_snoc (addr : Ipv4Addr) (h : List LeaseEntry) (e : LeaseEntry) :
    lastOwner addr (h ++ [e]) = (e.after.nat.inbound addr).or (lastOwner addr h) := by
  rw [lastOwner, List.foldl_append]
  rfl

/-- What holds after every run. -/
structure LeaseInv (h : List LeaseEntry) (s : LeaseHost) : Prop where
  table : TableInv s.nat
  clock : ∀ e ∈ h, e.act.now ≤ s.clock
  owner : s.nat.initialized = true → ∀ addr, lastOwner addr h = s.nat.inbound addr
  listed : ∀ addr owner, lastOwner addr h = some owner → ∃ owner', s.file.Names addr owner'
  stamps : ∀ owner addr t, s.nat.outbound owner = some ⟨addr, t⟩ →
    ∀ pre use post, h = pre ++ use :: post → Uses use owner addr →
      use.act.now ≤ t ∨
        ((∃ e ∈ post, StartsLeases e) ∧ use.act.now ≤ t + (leaseIdleExpiry - restartGrace))

theorem names_of_owner (owned : (slots.map (·.lease))[k]? = some lease) :
    (LeaseFile.slots slots).Names (leaseAddress k) lease :=
  ⟨slots, k, rfl, rfl, owned⟩

/-- The file that was read names every owner of the table taken up from it. -/
theorem TableInv.names_read {inbound : Ipv4Addr → Option Lease} {outbound : Lease → Option Leased}
    (table : TableInv ⟨true, slots, outbound, inbound⟩)
    (read : (s.file = .missing ∧ slots = []) ∨ s.file = .slots slots)
    (owned : inbound addr = some owner) : s.file.Names addr owner := by
  obtain ⟨k, at', rfl⟩ := (table.represents.inn addr owner).mp owned
  rcases read with ⟨_, rfl⟩ | saved
  · cases at'
  · rw [saved]
    exact names_of_owner at'

/-- The file that was written names every owner of the table. -/
theorem TableInv.names_written (table : TableInv (s.nat.grant lease index t))
    (owned : (s.nat.grant lease index t).inbound addr = some owner) :
    (LeaseFile.slots (withOwner s.nat.stamped index ⟨lease, t⟩)).Names addr owner := by
  obtain ⟨k, at', rfl⟩ := (table.represents.inn addr owner).mp owned
  exact names_of_owner at'

section Step

variable {h : List LeaseEntry} {s s' : LeaseHost} {a : LeaseAct} {out : LeaseOut}

theorem TableInv.step (inv : TableInv s.nat) (step : leaseStep s a out s') : TableInv s'.nat := by
  obtain ⟨_, _, outcome⟩ := leaseStep_outcome step
  exact TableInv.outcome (s := { s with clock := a.now }) inv outcome

/-- An address that has an owner had the same one last. -/
theorem LeaseInv.lastOwner_of_inbound (inv : LeaseInv h s)
    (found : s.nat.inbound addr = some lease) : lastOwner addr h = some lease := by
  rw [inv.owner (inbound_of_blank inv.table found), found]

/-- A step that changes no owner changes no last owner. -/
theorem LeaseInv.lastOwner_kept (inv : LeaseInv h s)
    (last : lastOwner addr (h ++ [⟨s, a, out, s'⟩]) = some owner)
    (same : s'.nat.inbound = s.nat.inbound) : lastOwner addr h = some owner := by
  rw [lastOwner_snoc, same] at last
  cases found : s.nat.inbound addr with
  | none => rwa [found] at last
  | some lease => rwa [found, Option.some_or, ← inv.lastOwner_of_inbound found] at last

/-- The table taken up from the file has an owner for each address that ever had one. -/
theorem LeaseInv.inbound_of_started (inv : LeaseInv h s) {inbound : Ipv4Addr → Option Lease}
    {outbound : Lease → Option Leased}
    (read : (s.file = .missing ∧ slots = []) ∨ s.file = .slots slots)
    (rep : Represents (slots.map (·.lease)) outbound inbound)
    (last : lastOwner addr h = some owner) :
    ∃ owner', inbound addr = some owner' := by
  obtain ⟨owner', slots', k, file, rfl, owned⟩ := inv.listed addr owner last
  rcases read with ⟨missing, _⟩ | same
  · rw [missing] at file
    cases file
  · cases file.symm.trans same
    exact ⟨owner', (rep.inn _ _).mpr ⟨k, owned, rfl⟩⟩

variable {now : Nat}

/-- Every owner of the table is in the file that was just written. -/
theorem names_of_written (lease : Lease) (inv : TableInv s.nat)
    (picked : pick s.nat.stamped now = some index) (owned : s.nat.inbound addr = some owner) :
    (addr = leaseAddress index ∧ (s.nat.slots.map (·.lease))[index]? = some owner) ∨
      (LeaseFile.slots (withOwner s.nat.stamped index ⟨lease, now⟩)).Names addr owner := by
  obtain ⟨inside, _⟩ := pick_le picked inv.sized
  obtain ⟨k, at', rfl⟩ := (inv.represents.inn addr owner).mp owned
  by_cases here : k = index
  · exact .inl ⟨congrArg leaseAddress here, here ▸ at'⟩
  · refine .inr (names_of_owner ?_)
    rw [withOwner_leases inside, if_neg here, s.nat.stamped_leases, at']

theorem names_of_new (inv : TableInv s.nat) (picked : pick s.nat.stamped now = some index) :
    (LeaseFile.slots (withOwner s.nat.stamped index ⟨lease, now⟩)).Names
      (leaseAddress index) lease := by
  refine names_of_owner ?_
  rw [withOwner_leases (pick_le picked inv.sized).1, if_pos rfl]

theorem LeaseInv.owner_step (inv : LeaseInv h s) (step : leaseStep s a out s')
    (initialized : s'.nat.initialized = true) (addr : Ipv4Addr) :
    lastOwner addr (h ++ [⟨s, a, out, s'⟩]) = s'.nat.inbound addr := by
  have table := inv.table.step step
  obtain ⟨_, _, outcome⟩ := leaseStep_outcome step
  rw [lastOwner_snoc]
  cases found : s'.nat.inbound addr with
  | some lease => rw [Option.some_or]
  | none =>
    rw [Option.none_or]
    obtain ⟨nat', file', clock'⟩ := s'
    cases outcome with
    | kept | sent => rw [inv.owner initialized, found]
    | refused _ _ before | replaced _ _ before => rw [inv.owner before, found]
    | @granted lease index _ _ _ before =>
      rw [inv.owner before]
      by_cases here : addr = leaseAddress index
      · subst here
        simp at found
      · simpa [here] using found
    | cleared _ blank => exact absurd (blank.symm.trans initialized) (by decide)
    | started _ _ read =>
      by_contra last
      obtain ⟨owner, last⟩ := Option.ne_none_iff_exists'.mp last
      obtain ⟨owner', present⟩ := inv.inbound_of_started read table.represents last
      rw [found] at present
      cases present
    | restarted => cases initialized

theorem LeaseInv.listed_step (inv : LeaseInv h s) (step : leaseStep s a out s') (addr : Ipv4Addr)
    (owner : Lease) (last : lastOwner addr (h ++ [⟨s, a, out, s'⟩]) = some owner) :
    ∃ owner', s'.file.Names addr owner' := by
  have after := inv.owner_step step
  have table := inv.table.step step
  obtain ⟨_, _, outcome⟩ := leaseStep_outcome step
  have before := inv.lastOwner_kept last
  have unchanged : s'.nat.inbound = s.nat.inbound → s'.file = s.file →
      ∃ owner', s'.file.Names addr owner' := by
    intro same file
    rw [file]
    exact inv.listed addr owner (before same)
  have gone : s'.nat.inbound addr = none → s'.file = s.file →
      ∃ owner', s'.file.Names addr owner' := by
    intro absent file
    rw [lastOwner_snoc, absent] at last
    rw [file]
    exact inv.listed addr owner last
  obtain ⟨nat', file', clock'⟩ := s'
  cases outcome with
  | kept | refused | sent => exact unchanged rfl rfl
  | cleared | restarted => exact gone rfl rfl
  | @replaced lease index _ _ _ initialized picked =>
    have owned : s.nat.inbound addr = some owner :=
      (inv.owner initialized addr).symm.trans (before rfl)
    rcases names_of_written lease inv.table picked owned with ⟨rfl, _⟩ | named
    · exact ⟨lease, names_of_new inv.table picked⟩
    · exact ⟨owner, named⟩
  | granted => exact ⟨owner, table.names_written ((after rfl addr).symm.trans last)⟩
  | started _ _ read => exact ⟨owner, table.names_read read ((after rfl addr).symm.trans last)⟩

theorem lastUsed_update {f : Lease → Option Leased} {addr' : Ipv4Addr}
    (present : Function.update f lease (some ⟨addr', now⟩) lease = some ⟨addr, t⟩) : t = now := by
  rw [Function.update_self] at present
  cases present
  rfl

/-- A step in which a client uses its address stamps it. -/
theorem stamped_by_use (step : leaseStep s a out s') (uses : Uses ⟨s, a, out, s'⟩ owner addr)
    (present : s'.nat.outbound owner = some ⟨addr, t⟩) : t = a.now := by
  obtain ⟨_, _, outcome⟩ := leaseStep_outcome step
  obtain ⟨⟨packet, save, call⟩, _⟩ := uses
  obtain ⟨nat', file', clock'⟩ := s'
  cases outcome with
  | kept absent =>
    rw [absent packet owner save call] at present
    cases present
  | refused asks absent | replaced asks absent =>
    rw [← asks.outbound call] at absent
    rw [absent] at present
    cases present
  | granted asks =>
    cases asks.outbound call
    exact lastUsed_update present
  | sent call' =>
    cases call.symm.trans call'
    exact lastUsed_update present
  | cleared other | started other => exact absurd (.inr ⟨packet, save, call⟩) (other owner)
  | restarted call' => cases call.symm.trans call'

/-- What a step makes of a lease: stamped now, as it was, or taken up from the file. -/
theorem lease_after (inv : TableInv s.nat) (step : leaseStep s a out s')
    (present : s'.nat.outbound owner = some ⟨addr, t⟩) :
    t = a.now ∨ s.nat.outbound owner = some ⟨addr, t⟩ ∨
      (StartsLeases ⟨s, a, out, s'⟩ ∧ a.now ≤ t + (leaseIdleExpiry - restartGrace)) := by
  obtain ⟨_, _, outcome⟩ := leaseStep_outcome step
  obtain ⟨nat', file', clock'⟩ := s'
  cases outcome with
  | kept | refused | replaced => exact .inr (.inl present)
  | @granted lease index _ _ _ _ _ _ =>
    by_cases same : owner = lease
    · subst same
      exact .inl (lastUsed_update present)
    · have kept : displace s.nat.outbound (s.nat.stamped.map (·.lease))[index]? owner =
          some ⟨addr, t⟩ := by
        rw [← present]
        exact (Function.update_of_ne same _ _).symm
      refine .inr (.inl ?_)
      cases previous : (s.nat.stamped.map (·.lease))[index]? with
      | none =>
        rw [previous] at kept
        exact kept
      | some displaced =>
        rw [previous, displace] at kept
        by_cases gone : owner = displaced
        · subst gone
          rw [Function.update_self] at kept
          cases kept
        · rwa [Function.update_of_ne gone] at kept
  | @sent packet lease save leased _ call found =>
    by_cases same : owner = lease
    · subst same
      exact .inl (lastUsed_update present)
    · refine .inr (.inl ?_)
      rw [← present]
      exact (Function.update_of_ne same _ _).symm
  | cleared | restarted => cases present
  | @started _ slots outbound inbound _ blank _ sized loaded =>
    have empty : s.nat = .empty := inv.blank blank
    simp only [empty] at loaded
    have floored := (load_represents .empty (by simpa using sized) (by nofun) loaded).2 owner
      ⟨addr, t⟩ present
    have floored : a.now - (leaseIdleExpiry - restartGrace) ≤ t := floored
    exact .inr (.inr ⟨⟨blank, rfl⟩, by omega⟩)

theorem LeaseInv.stamps_step (inv : LeaseInv h s) (step : leaseStep s a out s') (owner : Lease)
    (addr : Ipv4Addr) (t : Nat) (present : s'.nat.outbound owner = some ⟨addr, t⟩)
    (pre : List LeaseEntry) (use : LeaseEntry) (post : List LeaseEntry)
    (split : h ++ [⟨s, a, out, s'⟩] = pre ++ use :: post) (uses : Uses use owner addr) :
    use.act.now ≤ t ∨
      ((∃ e ∈ post, StartsLeases e) ∧ use.act.now ≤ t + (leaseIdleExpiry - restartGrace)) := by
  rcases snoc_cases split with ⟨rfl, rfl, rfl⟩ | ⟨post', rfl, rfl⟩
  · exact .inl (stamped_by_use step uses present).ge
  · have earlier : use.act.now ≤ a.now := by
      obtain ⟨forward, _⟩ := leaseStep_outcome step
      exact (inv.clock use (by simp)).trans forward
    rcases lease_after inv.table step present with rfl | kept | ⟨starts, floored⟩
    · exact .inl earlier
    · rcases inv.stamps owner addr t kept pre use post' rfl uses with
        stamped | ⟨⟨e, member, starts⟩, idle⟩
      · exact .inl stamped
      · exact .inr ⟨⟨e, List.mem_append_left _ member, starts⟩, idle⟩
    · exact .inr ⟨⟨_, mem_snoc, starts⟩, earlier.trans floored⟩

theorem LeaseInv.step (inv : LeaseInv h s) (step : leaseStep s a out s') :
    LeaseInv (h ++ [⟨s, a, out, s'⟩]) s' := by
  refine ⟨inv.table.step step, ?_, inv.owner_step step, inv.listed_step step, inv.stamps_step step⟩
  obtain ⟨forward, clock, _⟩ := leaseStep_outcome step
  intro e member
  rw [clock]
  rcases mem_snoc_cases member with older | rfl
  · exact (inv.clock e older).trans forward
  · exact le_rfl

/-! ## Addresses that change hands -/

/-- Each last owner is still the one the file names, or has been idle for the grace period. -/
def Saved (h : List LeaseEntry) (s : LeaseHost) : Prop :=
  ∀ addr owner, lastOwner addr h = some owner → s.file.Names addr owner ∨
    ∀ use ∈ h, Uses use owner addr → use.act.now + restartGrace ≤ s.clock

/-- An owner whose slot was picked has not used the address for long. -/
theorem LeaseInv.unused_of_idle (inv : LeaseInv h s)
    (present : s.nat.outbound owner = some ⟨leaseAddress index, t⟩)
    (idle : t + leaseIdleExpiry ≤ now) (pre : List LeaseEntry) (use : LeaseEntry)
    (post : List LeaseEntry) (split : h = pre ++ use :: post)
    (uses : Uses use owner (leaseAddress index)) :
    use.act.now + leaseIdleExpiry ≤ now ∨
      ((∃ e ∈ post, StartsLeases e) ∧ use.act.now + restartGrace ≤ now) := by
  have longer : restartGrace ≤ leaseIdleExpiry := by decide
  rcases inv.stamps owner _ t present pre use post split uses with stamped | ⟨starts, floored⟩
  · exact .inl (by omega)
  · exact .inr ⟨starts, by omega⟩

theorem Saved.step (saved : Saved h s) (inv : LeaseInv h s) (step : leaseStep s a out s')
    (sends : SendsAsSaved ⟨s, a, out, s'⟩) : Saved (h ++ [⟨s, a, out, s'⟩]) s' := by
  intro addr owner last
  have after := inv.owner_step step
  have table := inv.table.step step
  obtain ⟨forward, clock, outcome⟩ := leaseStep_outcome step
  have before := inv.lastOwner_kept last
  -- idle before, and not used in this step
  have stays : ¬Uses ⟨s, a, out, s'⟩ owner addr → s'.file = s.file →
      lastOwner addr h = some owner → s'.file.Names addr owner ∨
        ∀ use ∈ h ++ [⟨s, a, out, s'⟩], Uses use owner addr →
          use.act.now + restartGrace ≤ s'.clock := by
    intro unused file was
    rw [file, clock]
    rcases saved addr owner was with named | idle
    · exact .inl named
    · refine .inr fun use member uses => ?_
      rcases mem_snoc_cases member with older | rfl
      · exact (idle use older uses).trans forward
      · exact absurd uses unused
  have unasked : (∀ packet save, a.call ≠ .outbound packet owner save) →
      ¬Uses ⟨s, a, out, s'⟩ owner addr := by
    rintro other ⟨⟨packet, save, call⟩, _⟩
    exact other packet save call
  have unheld : s.nat.outbound owner = none → s'.nat.outbound = s.nat.outbound →
      ¬Uses ⟨s, a, out, s'⟩ owner addr := by
    rintro absent same ⟨_, t, present⟩
    rw [same, absent] at present
    cases present
  have refusedUse : ∀ lease, a.call.Asks lease → s.nat.outbound lease = none →
      s'.nat.outbound = s.nat.outbound → ¬Uses ⟨s, a, out, s'⟩ owner addr := by
    intro lease asks absent same uses
    obtain ⟨packet, save, call⟩ := uses.1
    cases asks.outbound call
    exact unheld absent same uses
  obtain ⟨nat', file', clock'⟩ := s'
  cases outcome with
  | kept absent =>
    refine stays (fun uses => ?_) rfl (before rfl)
    obtain ⟨packet, save, call⟩ := uses.1
    exact unheld (absent packet owner save call) rfl uses
  | refused asks absent => exact stays (refusedUse _ asks absent rfl) rfl (before rfl)
  | @replaced lease index _ asks absent initialized picked =>
    have owned : s.nat.inbound addr = some owner :=
      (inv.owner initialized addr).symm.trans (before rfl)
    rcases names_of_written lease inv.table picked owned with ⟨rfl, at'⟩ | named
    · obtain ⟨t, present, idle⟩ :=
        TableInv.idle_of_picked (s := { s with clock := a.now }) inv.table picked at'
      have longer : restartGrace ≤ leaseIdleExpiry := by decide
      refine .inr fun use member uses => ?_
      rw [clock]
      rcases mem_snoc_cases member with older | rfl
      · obtain ⟨pre, post, split⟩ := List.append_of_mem older
        rcases inv.unused_of_idle present idle pre use post split uses with long | ⟨_, grace⟩
        · exact (Nat.add_le_add_left longer _).trans long
        · exact grace
      · exact absurd uses (refusedUse lease asks absent rfl)
    · exact .inl named
  | granted => exact .inl (table.names_written ((after rfl addr).symm.trans last))
  | @sent packet lease save leased _ call present =>
    by_cases same : owner = lease
    · subst same
      have initialized : s.nat.initialized = true :=
        inbound_of_blank inv.table ((inv.table.represents.inverse owner leased.addr).mp
          ⟨leased.lastUsed, present⟩)
      have owned : s.nat.inbound addr = some owner :=
        (inv.owner initialized addr).symm.trans (before rfl)
      obtain ⟨t, held⟩ := (inv.table.represents.inverse owner addr).mpr owned
      cases present.symm.trans held
      exact .inl (sends packet owner save _ call present)
    · refine stays (unasked fun packet' save' call' => same ?_) rfl (before rfl)
      cases call'.symm.trans call
      rfl
  | cleared other =>
    rw [lastOwner_snoc] at last
    exact stays (unasked fun packet save call => other owner (.inr ⟨packet, save, call⟩)) rfl last
  | restarted call =>
    rw [lastOwner_snoc] at last
    exact stays (unasked fun packet save call' => nomatch call'.symm.trans call) rfl last
  | @started _ slots outbound inbound other _ read =>
    rw [lastOwner_snoc] at last
    have last : (inbound addr).or (lastOwner addr h) = some owner := last
    cases found : inbound addr with
    | none =>
      rw [found] at last
      exact stays (unasked fun packet save call => other owner (.inr ⟨packet, save, call⟩)) rfl last
    | some owner' =>
      rw [found] at last
      cases last
      exact .inl (table.names_read read found)

/-- An address changes hands in a step only from an owner that was idle. -/
theorem LeaseInv.takesIdle (inv : LeaseInv h s) (step : leaseStep s a out s')
    (saved : s.nat.initialized = false → Saved h s) : TakesIdle h ⟨s, a, out, s'⟩ := by
  intro addr owner owner' last taken changed pre use post split uses
  have table := inv.table.step step
  obtain ⟨forward, _, outcome⟩ := leaseStep_outcome step
  have unchanged : s'.nat.inbound = s.nat.inbound → False := by
    intro same
    rw [same] at taken
    have was := inv.lastOwner_of_inbound taken
    rw [last] at was
    exact changed (Option.some.inj was)
  obtain ⟨nat', file', clock'⟩ := s'
  cases outcome with
  | kept | refused | replaced | sent => exact absurd rfl unchanged
  | cleared | restarted => cases taken
  | @granted lease index _ _ _ initialized picked =>
    have owned : s.nat.inbound addr = some owner := (inv.owner initialized addr).symm.trans last
    by_cases here : addr = leaseAddress index
    · subst here
      obtain ⟨k, at', same⟩ := (inv.table.represents.inn _ owner).mp owned
      obtain ⟨_, small⟩ := pick_le picked inv.table.sized
      obtain rfl := leaseAddress_inj small (inv.table.represents.lt_maxLeases at') same
      obtain ⟨t, present, idle⟩ :=
        TableInv.idle_of_picked (s := { s with clock := a.now }) inv.table picked at'
      rcases inv.unused_of_idle present idle pre use post split uses with
        long | ⟨⟨e, member, starts⟩, grace⟩
      · exact .inl long
      · exact .inr ⟨⟨e, List.mem_append_left _ member, starts⟩, grace⟩
    · have kept : s.nat.inbound addr = some owner' := by
        rw [← taken]
        exact (Function.update_of_ne here _ _).symm
      rw [owned] at kept
      exact absurd (Option.some.inj kept) changed
  | @started _ slots outbound inbound _ blank read =>
    have member : use ∈ h := by
      rw [split]
      simp
    rcases saved blank addr owner last with ⟨slots', k, file, rfl, at'⟩ | idle
    · rcases read with ⟨missing, _⟩ | same
      · cases file.symm.trans missing
      · cases file.symm.trans same
        have kept := (table.represents.inn _ owner).mpr ⟨k, at', rfl⟩
        have taken : inbound (leaseAddress k) = some owner' := taken
        rw [show inbound (leaseAddress k) = some owner from kept] at taken
        exact absurd (Option.some.inj taken) changed
    · refine .inr ⟨⟨_, mem_snoc, blank, rfl⟩, ?_⟩
      exact (idle use member uses).trans forward

end Step

/-! ## Every run -/

theorem run_leaseInv (run : Run leaseStep ⟨.empty, file, clock⟩ h s) : LeaseInv h s := by
  induction run with
  | nil => exact ⟨.empty, fun _ member => absurd member List.not_mem_nil, nofun, nofun, nofun⟩
  | snoc _ step ih => exact ih.step step

theorem run_saved (run : Run leaseStep ⟨.empty, file, clock⟩ h s)
    (sends : ∀ e ∈ h, SendsAsSaved e) :
    Saved h s := by
  refine run.invariant sends nofun fun before _ step sends saved => ?_
  exact saved.step (run_leaseInv before) step sends

/-- An allocation whose save fails changes neither map. -/
theorem maps_of_failed_save (step : leaseStep s a (.error .save) s') (asks : a.call.Asks lease) :
    s'.nat.outbound = s.nat.outbound ∧ s'.nat.inbound = s.nat.inbound := by
  obtain ⟨_, _, outcome⟩ := leaseStep_outcome step
  obtain ⟨nat', file', clock'⟩ := s'
  cases outcome with
  | kept | refused | replaced => exact ⟨rfl, rfl⟩
  | granted _ _ _ _ saved | sent _ _ saved => exact absurd rfl saved
  | cleared other | started other => exact absurd asks (other lease)
  | restarted call =>
    rw [call] at asks
    rcases asks with ⟨_, same⟩ | ⟨_, _, same⟩ <;> cases same

/-- The leases of an exit, along every run from an empty table and any file, with any failing
saves and any restarts: the maps are inverse to each other, stay in the pool and within its
size, and a failed save changes neither. An address changes hands only from an idle owner: in
a running daemon always, and across restarts when clients send through an address only while
the file gives it to them too. -/
theorem exit_leases {h : List LeaseEntry} {file : LeaseFile} {clock : Nat} {s : LeaseHost}
    (run : Run leaseStep ⟨.empty, file, clock⟩ h s) :
    (∀ lease addr, (∃ t, s.nat.outbound lease = some ⟨addr, t⟩) ↔ s.nat.inbound addr = some lease) ∧
    (∀ addr lease, s.nat.inbound addr = some lease → isServerAddr addr = true) ∧
    (∃ leases : Finset Lease, leases.card ≤ maxLeases ∧
      ∀ lease, (s.nat.outbound lease).isSome ↔ lease ∈ leases) ∧
    (∀ e ∈ h, ∀ lease, e.act.call.Asks lease → e.out = .error .save →
      e.after.nat.outbound = e.before.nat.outbound ∧ e.after.nat.inbound = e.before.nat.inbound) ∧
    (∀ pre e post, h = pre ++ e :: post → e.before.nat.initialized = true → TakesIdle pre e) ∧
    ((∀ e ∈ h, SendsAsSaved e) → ∀ pre e post, h = pre ++ e :: post → TakesIdle pre e) := by
  have rep := (run_leaseInv run).table.represents
  refine ⟨rep.inverse, ?_, ?_, ?_, ?_, ?_⟩
  · intro addr lease owned
    obtain ⟨k, at', rfl⟩ := (rep.inn addr lease).mp owned
    exact isServerAddr_leaseAddress (rep.lt_maxLeases at')
  · refine ⟨(s.nat.slots.map (·.lease)).toFinset, ?_, fun lease => ?_⟩
    · exact (List.toFinset_card_le _).trans rep.sized
    · rw [List.mem_toFinset, List.mem_iff_getElem?]
      constructor
      · intro present
        obtain ⟨leased, present⟩ := Option.isSome_iff_exists.mp present
        obtain ⟨k, at', _⟩ := (rep.out lease leased.addr).mp ⟨leased.lastUsed, present⟩
        exact ⟨k, at'⟩
      · rintro ⟨k, at'⟩
        obtain ⟨t, present⟩ := rep.outbound_of_owner at'
        rw [present]
        rfl
  · intro e member lease asks failed
    have step := run.entry_step member
    rw [failed] at step
    exact maps_of_failed_save step asks
  · intro pre e post split initialized
    obtain ⟨before, step, _⟩ := run.split split
    exact (run_leaseInv before).takesIdle step fun blank => by
      rw [initialized] at blank
      cases blank
  · intro sends pre e post split
    obtain ⟨before, step, _⟩ := run.split split
    refine (run_leaseInv before).takesIdle step fun _ => run_saved before fun e' member => ?_
    exact sends e' (by rw [split]; exact List.mem_append_left _ member)

/-- Two clients of one network. -/
def clientA : Lease := ⟨deriveIpv6 1, "net"⟩

def clientB : Lease := ⟨deriveIpv6 2, "net"⟩

def dnsQuery : Bytes := exitDatagram

/-- Client A sends at the start and again after a day. -/
def leaseSends : List LeaseAct :=
  [⟨0, .initializeLeases true⟩, ⟨1, .outbound dnsQuery clientA .done⟩,
    ⟨86400, .outbound dnsQuery clientA .done⟩]

/-- Whether a sending client is the one the file names, evaluated. -/
def sendsAsSaved (e : LeaseEntry) : Bool :=
  match e.act.call with
  | .outbound _ lease _ =>
    (e.before.nat.outbound lease).all fun leased =>
      match e.before.file with
      | .slots slots => slots.zipIdx.any fun entry =>
          entry.1.lease == lease && leaseAddress entry.2 == leased.addr
      | _ => false
  | _ => true

theorem sendsAsSaved_sound (checked : sendsAsSaved e = true) : SendsAsSaved e := by
  intro packet lease save leased call present
  rw [sendsAsSaved, call] at checked
  simp only [present, Option.all_some] at checked
  split at checked
  · next slots file =>
    simp only [List.any_eq_true, Bool.and_eq_true, beq_iff_eq] at checked
    obtain ⟨⟨slot, k⟩, member, rfl, same⟩ := checked
    refine ⟨slots, k, file, same.symm, ?_⟩
    rw [List.getElem?_map, List.mem_zipIdx_iff_getElem?.mp member]
    rfl
  · cases checked

/-- Client B asks for an address once A has been idle for a month. -/
def leaseTaken : List LeaseEntry × LeaseHost :=
  executed LeaseAct.run ⟨.empty, .missing, 0⟩
    (leaseSends ++ [⟨86400 * 32, .allocate clientB .done⟩])

/-- B gets A's address. -/
theorem exit_leases_taken :
    leaseTaken.2.nat.inbound (leaseAddress 0) = some clientB ∧
      (∀ addr lease, leaseTaken.2.nat.inbound addr = some lease → isServerAddr addr = true) ∧
      ∀ pre e post, leaseTaken.1 = pre ++ e :: post → TakesIdle pre e := by
  have run : Run leaseStep ⟨.empty, .missing, 0⟩ leaseTaken.1 leaseTaken.2 :=
    run_executed _ (by decide +kernel)
  have sends : ∀ e ∈ leaseTaken.1, SendsAsSaved e := by
    have checked : leaseTaken.1.all sendsAsSaved = true := by decide +kernel
    exact fun e member => sendsAsSaved_sound (List.all_eq_true.mp checked e member)
  obtain ⟨_, pool, _, _, _, law⟩ := exit_leases run
  have taken : leaseTaken.2.nat.inbound (leaseAddress 0) = some clientB := by decide +kernel
  exact ⟨taken, pool, law sends⟩

/-- B's save fails after the file was replaced, A sends again, and the daemon restarts. -/
def leaseLost : List LeaseEntry × LeaseHost :=
  executed LeaseAct.run ⟨.empty, .missing, 0⟩ (leaseSends ++
    [⟨86400 * 32, .allocate clientB (.failed true)⟩,
      ⟨86400 * 32 + 1, .outbound dnsQuery clientA .done⟩, ⟨86400 * 32 + 2, .restart⟩,
      ⟨86400 * 32 + 3, .initializeLeases true⟩])

theorem split_of_getElem? (at' : l[i]? = some e) : l = l.take i ++ e :: l.drop (i + 1) := by
  obtain ⟨inside, rfl⟩ := List.getElem?_eq_some_iff.mp at'
  rw [← List.drop_eq_getElem_cons inside, List.take_append_drop]

/-- After that run the table has B at A's address, two seconds after A used it. -/
theorem lease_reassigned_by_failed_save :
    ∃ h s, Run leaseStep ⟨.empty, .missing, 0⟩ h s ∧
      ∃ pre e post, h = pre ++ e :: post ∧ ¬TakesIdle pre e := by
  have run : Run leaseStep ⟨.empty, .missing, 0⟩ leaseLost.1 leaseLost.2 :=
    run_executed _ (by decide +kernel)
  have start : leaseLost.1[6]?.map (fun e => (e.act.now, e.after.nat.inbound (leaseAddress 0))) =
      some (86400 * 32 + 3, some clientB) := by decide +kernel
  have sent : (leaseLost.1.take 6)[4]?.map
      (fun e => (e.act.now, e.act.call, e.after.nat.outbound clientA)) =
      some (86400 * 32 + 1, .outbound dnsQuery clientA .done,
        some ⟨leaseAddress 0, 86400 * 32 + 1⟩) := by decide +kernel
  have last : lastOwner (leaseAddress 0) (leaseLost.1.take 6) = some clientA := by decide +kernel
  obtain ⟨e, at', facts⟩ := Option.map_eq_some_iff.mp start
  obtain ⟨use, used, facts'⟩ := Option.map_eq_some_iff.mp sent
  simp only [Prod.mk.injEq] at facts facts'
  obtain ⟨late, taken⟩ := facts
  obtain ⟨early, call, held⟩ := facts'
  refine ⟨_, _, run, _, _, _, split_of_getElem? at', fun idle => ?_⟩
  have law := idle _ _ _ last taken (by decide +kernel) _ _ _ (split_of_getElem? used)
    ⟨⟨_, _, call⟩, _, held⟩
  rw [early, late] at law
  rcases law with long | ⟨_, grace⟩
  · exact absurd long (by decide)
  · exact absurd grace (by decide)

end Rayfish
