import Mathlib.Data.Finset.Basic
import Rayfish.Addr
import Rayfish.Lib.HashMap

/-!
# Routes to the members of every roster

One map from addresses to identities serves all networks (`roster_routes.rs`). A network's roster
is synced, extended or removed at any time, and what a sync no longer lists is dropped.
`roster_routes` compares the map with the rosters themselves (`Rosters`), each kept apart.
-/

namespace Rayfish

open Lib

structure RouteMember where
  endpointId : EndpointId
  ipv6 : Ipv6Addr

structure RouteEntry where
  endpointId : EndpointId
  networks : Finset String

/-- The networks are a vector in no particular order. -/
structure RouteTarget extends RouteMember where
  networks : Finset String

abbrev RosterRouteMap := HashMap Ipv6Addr RouteEntry

namespace RosterRouteMap

def upsert (network : String) (peers : RosterRouteMap) (m : RouteMember) : RosterRouteMap :=
  let networks := ((peers.lookup m.ipv6).map (·.networks)).getD ∅
  peers.insert m.ipv6 ⟨m.endpointId, insert network networks⟩

def dropNetwork (network : String) (peers : RosterRouteMap) (ipv6 : Ipv6Addr) : RosterRouteMap :=
  match peers.lookup ipv6 with
  | none => peers
  | some entry =>
    let networks := entry.networks.erase network
    if networks = ∅ then peers.erase ipv6 else peers.insert ipv6 { entry with networks }

variable (peers : RosterRouteMap) (network : String)

/-- The addresses of `network` that are not in `fresh`. -/
def stale (fresh : Finset Ipv6Addr) : List Ipv6Addr :=
  (peers.entries.filter fun e => network ∈ e.2.networks ∧ e.1 ∉ fresh).map (·.1)

def removeNetwork : RosterRouteMap :=
  (peers.stale network ∅).foldl (dropNetwork network) peers

def syncNetwork (members : List RouteMember) : RosterRouteMap :=
  let fresh := (members.map (·.ipv6)).toFinset
  members.foldl (upsert network) ((peers.stale network fresh).foldl (dropNetwork network) peers)

def resolveV6 (ipv6 : Ipv6Addr) : Option RouteTarget :=
  (peers.lookup ipv6).map fun entry => ⟨⟨entry.endpointId, ipv6⟩, entry.networks⟩

end RosterRouteMap

inductive RouteCall where
  | syncNetwork (network : String) (members : List RouteMember)
  | syncAdd (network : String) (member : RouteMember)
  | removeNetwork (network : String)

def RouteCall.members : RouteCall → List RouteMember
  | .syncNetwork _ members => members
  | .syncAdd _ member => [member]
  | .removeNetwork _ => []

def RosterRouteMap.call (peers : RosterRouteMap) : RouteCall → RosterRouteMap
  | .syncNetwork network members => peers.syncNetwork network members
  | .syncAdd network member => peers.upsert network member
  | .removeNetwork network => peers.removeNetwork network

/-- The addresses each network lists. -/
abbrev Rosters := String → Finset Ipv6Addr

namespace Rosters

def add (network : String) (rosters : Rosters) (ipv6 : Ipv6Addr) : Rosters :=
  Function.update rosters network (insert ipv6 (rosters network))

def drop (network : String) (rosters : Rosters) (ipv6 : Ipv6Addr) : Rosters :=
  Function.update rosters network ((rosters network).erase ipv6)

def call (rosters : Rosters) : RouteCall → Rosters
  | .syncNetwork network members =>
    Function.update rosters network (members.map (·.ipv6)).toFinset
  | .syncAdd network member => rosters.add network member.ipv6
  | .removeNetwork network => Function.update rosters network ∅

variable {network other : String} {ipv6 addr : Ipv6Addr} {rosters : Rosters}

@[simp] theorem mem_add : ipv6 ∈ rosters.add network addr other ↔
    (other = network ∧ ipv6 = addr) ∨ ipv6 ∈ rosters other := by
  by_cases same : other = network <;> simp [add, same]

@[simp] theorem mem_drop : ipv6 ∈ rosters.drop network addr other ↔
    ipv6 ∈ rosters other ∧ ¬(other = network ∧ ipv6 = addr) := by
  by_cases same : other = network <;> simp [drop, same, and_comm]

theorem mem_adds (members : List RouteMember) :
    ipv6 ∈ members.foldl (fun r m => r.add network m.ipv6) rosters other ↔
      (other = network ∧ ipv6 ∈ members.map (·.ipv6)) ∨ ipv6 ∈ rosters other := by
  induction members generalizing rosters with
  | nil => simp
  | cons m members ih =>
    rw [List.foldl_cons, ih, mem_add, List.map_cons, List.mem_cons]
    tauto

theorem mem_drops (addrs : List Ipv6Addr) :
    ipv6 ∈ addrs.foldl (drop network) rosters other ↔
      ipv6 ∈ rosters other ∧ ¬(other = network ∧ ipv6 ∈ addrs) := by
  induction addrs generalizing rosters with
  | nil => simp
  | cons addr addrs ih =>
    rw [List.foldl_cons, ih, mem_drop, List.mem_cons]
    tauto

end Rosters

namespace RosterRouteMap

/-- An address resolves exactly while some roster lists it, to the identity that owns it and to
the networks that list it. -/
def Mirrors (owner : Ipv6Addr → EndpointId) (peers : RosterRouteMap) (rosters : Rosters) : Prop :=
  ∀ ipv6, match peers.resolveV6 ipv6 with
    | some target => target.endpointId = owner ipv6 ∧ target.ipv6 = ipv6 ∧ target.networks ≠ ∅ ∧
        ∀ network, network ∈ target.networks ↔ ipv6 ∈ rosters network
    | none => ∀ network, ipv6 ∉ rosters network

variable {peers : RosterRouteMap} {rosters : Rosters} {owner : Ipv6Addr → EndpointId}
  {network : String}

variable (mirrors : peers.Mirrors owner rosters)

include mirrors

theorem Mirrors.upsert (owned : owner m.ipv6 = m.endpointId) :
    (peers.upsert network m).Mirrors owner (rosters.add network m.ipv6) := by
  intro ipv6
  have before := mirrors ipv6
  rcases eq_or_ne ipv6 m.ipv6 with rfl | other
  · cases found : peers.lookup m.ipv6 <;> simp_all [resolveV6, RosterRouteMap.upsert]
  · simpa [resolveV6, RosterRouteMap.upsert, other] using before

theorem Mirrors.dropNetwork (dropped : Ipv6Addr) :
    (peers.dropNetwork network dropped).Mirrors owner (rosters.drop network dropped) := by
  intro ipv6
  have before := mirrors ipv6
  unfold RosterRouteMap.dropNetwork
  rcases eq_or_ne ipv6 dropped with rfl | other
  · cases found : peers.lookup ipv6 with
    | none => simp_all [resolveV6]
    | some entry =>
      by_cases left : entry.networks.erase network = ∅
      · simp_all [resolveV6, Finset.erase_eq_empty_iff]
      · simp_all [resolveV6, and_comm]
  · cases found : peers.lookup dropped with
    | none => simpa [other] using before
    | some entry =>
      by_cases left : entry.networks.erase network = ∅ <;>
        simpa [resolveV6, other, left] using before

theorem Mirrors.mem_stale :
    ipv6 ∈ peers.stale network fresh ↔ ipv6 ∈ rosters network ∧ ipv6 ∉ fresh := by
  have held : ipv6 ∈ peers.stale network fresh ↔
      ∃ entry, peers.lookup ipv6 = some entry ∧ network ∈ entry.networks ∧ ipv6 ∉ fresh := by
    simp [stale, ← AList.mem_lookup_iff]
  have listed := mirrors ipv6
  cases found : peers.lookup ipv6 <;> simp_all [resolveV6]

theorem Mirrors.drops (addrs : List Ipv6Addr) :
    (addrs.foldl (RosterRouteMap.dropNetwork network) peers).Mirrors owner
      (addrs.foldl (Rosters.drop network) rosters) :=
  List.foldl_rel mirrors fun dropped _ _ _ mirrors => mirrors.dropNetwork dropped

theorem Mirrors.call (owned : ∀ m ∈ c.members, owner m.ipv6 = m.endpointId) :
    (peers.call c).Mirrors owner (rosters.call c) := by
  cases c with
  | syncNetwork network members =>
    have same : rosters.call (.syncNetwork network members) =
        members.foldl (fun r m => r.add network m.ipv6) ((peers.stale network
          (members.map (·.ipv6)).toFinset).foldl (.drop network) rosters) := by
      ext other ipv6
      rw [Rosters.mem_adds, Rosters.mem_drops, mirrors.mem_stale]
      by_cases same : other = network <;> simp [Rosters.call, same]
      tauto
    rw [same]
    exact List.foldl_rel (mirrors.drops _) fun m listed _ _ mirrors =>
      mirrors.upsert (owned m listed)
  | syncAdd network member => exact mirrors.upsert (owned member List.mem_cons_self)
  | removeNetwork network =>
    have same : rosters.call (.removeNetwork network) =
        (peers.stale network ∅).foldl (.drop network) rosters := by
      ext other ipv6
      rw [Rosters.mem_drops, mirrors.mem_stale]
      by_cases same : other = network <;> simp [Rosters.call, same]
    rw [same]
    exact mirrors.drops _

end RosterRouteMap

/-- Whatever is called, in whatever order, on whichever networks. -/
theorem roster_routes (owner : Ipv6Addr → EndpointId) (calls : List RouteCall)
    (owned : ∀ c ∈ calls, ∀ m ∈ c.members, owner m.ipv6 = m.endpointId) :
    (calls.foldl RosterRouteMap.call ∅).Mirrors owner (calls.foldl Rosters.call fun _ => ∅) :=
  List.foldl_rel (fun _ _ => Finset.notMem_empty _) fun c listed _ _ mirrors =>
    mirrors.call (owned c listed)

/-- A member of two networks is dropped by one, and is still routed to by the other. -/
theorem roster_routes_resynced :
    ([.syncNetwork "home" [⟨1, 2⟩], .syncAdd "lab" ⟨1, 2⟩, .syncNetwork "home" []].foldl
        RosterRouteMap.call ∅).Mirrors (fun _ => 1) fun network =>
      if network = "lab" then {2} else ∅ := by
  have mirrors := roster_routes (fun _ => 1)
    [.syncNetwork "home" [⟨1, 2⟩], .syncAdd "lab" ⟨1, 2⟩, .syncNetwork "home" []]
    (by simp [RouteCall.members])
  convert mirrors using 2 with network
  by_cases lab : network = "lab" <;> by_cases home : network = "home" <;>
    simp_all [Rosters.call, Rosters.add]

end Rayfish
