import Mathlib.Data.Prod.Lex
import Rayfish.Dns
import Rayfish.Hostname
import Rayfish.Lib.Run

/-!
# The hostname tables

The names of the networks and the table for reverse lookups (`dns/mod.rs`), under the four
calls that change them. The tables agree if every reverse entry names a host that holds the
address and every address that is held has a reverse entry. Removals repoint the reverse
entry of each address they free and keep this. `update_hostname` does not repoint the address
whose name it takes, nor `sync_network_hostnames` one whose name a later entry takes, so the
tables agree exactly if no call does that (`tables_agree_iff`).
-/

namespace Rayfish

open Lib

structure DnsTables where
  table : HostnameTable
  reverse : ReverseLookupTable

namespace DnsTables

def empty : DnsTables := ⟨∅, fun _ => none⟩

variable (t : DnsTables) (network : Name)

def updateHostname (network hostname : Name) (ipv6 : Ipv6Addr) : DnsTables :=
  if !isValidHostname hostname then t
  else
    let hosts := (t.table.lookup network).getD ∅
    let hosts := HashMap.retain (fun name addr => name == hostname || addr != ipv6) hosts
    { table := t.table.insert network (hosts.insert hostname ipv6)
      reverse := Function.update t.reverse ipv6 (some (hostname, network)) }

/-- The network and the name that hold an address, of the first network that does. -/
def holder (table : HostnameTable) (ipv6 : Ipv6Addr) : Option (Name ×ₗ Name) :=
  (table.entries.filterMap fun entry =>
    (entry.2.entries.find? fun host => host.2 == ipv6).map fun host =>
      toLex (entry.1, host.1)).min?

def repointReverse (table : HostnameTable) (reverse : ReverseLookupTable) (ipv6 : Ipv6Addr) :
    ReverseLookupTable :=
  Function.update reverse ipv6 ((holder table ipv6).map fun found =>
    ((ofLex found).2, (ofLex found).1))

def removeHostnameByIp (ipv6 : Ipv6Addr) : DnsTables :=
  let table :=
    match t.table.lookup network with
    | some hosts => t.table.insert network (HashMap.retain (fun _ v6 => v6 != ipv6) hosts)
    | none => t.table
  ⟨table, repointReverse table t.reverse ipv6⟩

/-- One entry of a roster. -/
def syncEntry (entry : Name × Ipv6Addr) (sofar : HashMap Name Ipv6Addr × ReverseLookupTable) :
    HashMap Name Ipv6Addr × ReverseLookupTable :=
  if !isValidHostname entry.1 then sofar
  else (sofar.1.insert entry.1 entry.2, Function.update sofar.2 entry.2 (some (entry.1, network)))

def values (hosts : HashMap Name Ipv6Addr) : List Ipv6Addr := hosts.entries.map fun host => host.2

/-- The addresses that were held before and are not any more. -/
def dropped (previous : Option (HashMap Name Ipv6Addr)) (current : HashMap Name Ipv6Addr) :
    List Ipv6Addr :=
  (previous.toList.flatMap values).filter fun v6 => !(values current).any fun new => new == v6

def syncNetworkHostnames (entries : List (Name × Ipv6Addr)) : DnsTables :=
  let (hosts, reverse) := entries.foldl (fun sofar entry => syncEntry network entry sofar)
    (∅, t.reverse)
  let table := t.table.insert network hosts
  ⟨table, (dropped (t.table.lookup network) hosts).foldl (repointReverse table) reverse⟩

def removeNetwork : DnsTables :=
  match t.table.lookup network with
  | some hosts =>
    let table := t.table.erase network
    ⟨table, (values hosts).foldl (repointReverse table) t.reverse⟩
  | none => t

end DnsTables

/-! ## Calls -/

inductive DnsCall where
  | updateHostname (network hostname : Name) (ipv6 : Ipv6Addr)
  | removeHostnameByIp (network : Name) (ipv6 : Ipv6Addr)
  | syncNetworkHostnames (network : Name) (entries : List (Name × Ipv6Addr))
  | removeNetwork (network : Name)

def DnsCall.apply (t : DnsTables) : DnsCall → DnsTables
  | .updateHostname network hostname ipv6 => t.updateHostname network hostname ipv6
  | .removeHostnameByIp network ipv6 => t.removeHostnameByIp network ipv6
  | .syncNetworkHostnames network entries => t.syncNetworkHostnames network entries
  | .removeNetwork network => t.removeNetwork network

/-- The address a name of a network has. -/
def addressOf (table : HostnameTable) (network hostname : Name) : Option Ipv6Addr :=
  (table.lookup network).bind (·.lookup hostname)

/-- The same maps, whose entries may come in another order. -/
structure Rehashed (table table' : HostnameTable) : Prop where
  networks : ∀ network, (table.lookup network).isSome = (table'.lookup network).isSome
  hosts : ∀ network hostname, addressOf table network hostname = addressOf table' network hostname

/-- One call; the order in which it meets the entries of the maps is open. -/
def dnsStep : StepRel DnsTables DnsCall Unit := fun t call _ t' =>
  ∃ table, Rehashed t.table table ∧ t' = call.apply ⟨table, t.reverse⟩

abbrev DnsEntry := Entry DnsTables DnsCall Unit

/-! ## Agreement -/

/-- The reverse entry of an address names a host that has it, and is there if one has. -/
structure AgreeAt (table : HostnameTable) (reverse : ReverseLookupTable) (ip : Ipv6Addr) :
    Prop where
  names : ∀ hostname network, reverse ip = some (hostname, network) →
    addressOf table network hostname = some ip
  found : ∀ network hostname, addressOf table network hostname = some ip → (reverse ip).isSome

def DnsTables.Agree (t : DnsTables) : Prop := ∀ ip, AgreeAt t.table t.reverse ip

section

variable (entries : List (Name × Ipv6Addr))

/-- The valid entries of a roster, the last one first. -/
def validEntries : List (Name × Ipv6Addr) :=
  entries.reverse.filter fun entry => isValidHostname entry.1

/-- The address the roster gives a name: that of the last entry for it. -/
def rosterAddress (hostname : Name) : Option Ipv6Addr :=
  ((validEntries entries).find? fun entry => entry.1 = hostname).map Prod.snd

/-- The name the roster gives an address: that of the last entry for it. -/
def rosterName (ip : Ipv6Addr) : Option Name :=
  ((validEntries entries).find? fun entry => entry.2 = ip).map Prod.fst

end

/-- The call takes a name away from an address and leaves the address's reverse entry as it
is: another address had the name, or an earlier entry of the roster gives it the name. An
address that the network held, and that the roster does not hold, is repointed. -/
def TakesName (t : DnsTables) : DnsCall → Prop
  | .updateHostname network hostname ipv6 =>
    isValidHostname hostname = true ∧ ∃ old, old ≠ ipv6 ∧
      addressOf t.table network hostname = some old ∧ t.reverse old = some (hostname, network)
  | .syncNetworkHostnames network entries =>
    ∃ ip hostname, rosterName entries ip = some hostname ∧
      rosterAddress entries hostname ≠ some ip ∧
      ((∃ name, addressOf t.table network name = some ip) →
        ∃ name, rosterAddress entries name = some ip)
  | _ => False

/-! ## Lookups after a change -/

section

variable {table table' : HostnameTable} {reverse reverse' : ReverseLookupTable}
  {hosts : HashMap Name Ipv6Addr} {network hostname : Name} {ip : Ipv6Addr} (network' : Name)

theorem addressOf_insert :
    addressOf (table.insert network hosts) network' hostname =
      if network' = network then hosts.lookup hostname else addressOf table network' hostname := by
  unfold addressOf
  split
  · next same =>
    rw [same, AList.lookup_insert]
    rfl
  · next other => rw [AList.lookup_insert_ne other]

theorem addressOf_erase :
    addressOf (table.erase network) network' hostname =
      if network' = network then none else addressOf table network' hostname := by
  unfold addressOf
  split
  · next same =>
    rw [same, AList.lookup_erase]
    rfl
  · next other => rw [AList.lookup_erase_ne other]

theorem mem_values : ip ∈ DnsTables.values hosts ↔ ∃ hostname, hosts.lookup hostname = some ip := by
  constructor
  · intro member
    obtain ⟨⟨hostname, _⟩, at_host, rfl⟩ := List.mem_map.mp member
    exact ⟨hostname, AList.mem_lookup_iff.mpr at_host⟩
  · rintro ⟨hostname, found⟩
    exact List.mem_map.mpr ⟨⟨hostname, ip⟩, AList.mem_lookup_iff.mp found, rfl⟩

/-- Agreement at an address depends on its reverse entry and on who holds it. -/
theorem AgreeAt.congr (agree : AgreeAt table reverse ip) (same : reverse' ip = reverse ip)
    (holds : ∀ network hostname,
      addressOf table' network hostname = some ip ↔ addressOf table network hostname = some ip) :
    AgreeAt table' reverse' ip where
  names hostname network named := (holds _ _).mpr (agree.names hostname network (same ▸ named))
  found network hostname at_host := same ▸ agree.found network hostname ((holds _ _).mp at_host)

/-! ## Repointing -/

theorem addressOf_of_holder (is : DnsTables.holder table ip = some found) :
    addressOf table (ofLex found).1 (ofLex found).2 = some ip := by
  obtain ⟨⟨network, hosts⟩, at_network, picked⟩ := List.mem_filterMap.mp (List.min?_mem is)
  obtain ⟨⟨hostname, addr⟩, at_host, rfl⟩ := Option.map_eq_some_iff.mp picked
  have at_addr : addr = ip := by simpa using List.find?_some at_host
  subst at_addr
  refine Option.bind_eq_some_iff.mpr ⟨hosts, AList.mem_lookup_iff.mpr at_network, ?_⟩
  exact AList.mem_lookup_iff.mpr (List.mem_of_find?_eq_some at_host)

theorem addressOf_ne_of_holder (is : DnsTables.holder table ip = none) :
    addressOf table network hostname ≠ some ip := by
  intro at_host
  obtain ⟨hosts, at_network, found⟩ := Option.bind_eq_some_iff.mp at_host
  have missing := List.filterMap_eq_nil_iff.mp (List.min?_eq_none_iff.mp is) ⟨network, hosts⟩
    (AList.mem_lookup_iff.mp at_network)
  rw [Option.map_eq_none_iff, List.find?_eq_none] at missing
  exact missing ⟨hostname, ip⟩ (AList.mem_lookup_iff.mp found) (beq_self_eq_true ip)

theorem repointReverse_other (differs : other ≠ ip) :
    DnsTables.repointReverse table reverse ip other = reverse other :=
  Function.update_of_ne differs _ _

theorem repointReverse_agree : AgreeAt table (DnsTables.repointReverse table reverse ip) ip := by
  unfold DnsTables.repointReverse
  cases is : DnsTables.holder table ip with
  | none =>
    refine ⟨fun _ _ named => ?_, fun _ _ at_host => absurd at_host (addressOf_ne_of_holder is)⟩
    rw [Function.update_self] at named
    cases named
  | some found =>
    refine ⟨fun _ _ named => ?_, fun _ _ _ => ?_⟩
    · rw [Function.update_self] at named
      cases named
      exact addressOf_of_holder is
    · rw [Function.update_self]
      rfl

/-- Repointing a list of addresses leaves the other entries alone. -/
theorem repoint_other {ips : List Ipv6Addr} (absent : ip ∉ ips) :
    ips.foldl (DnsTables.repointReverse table) reverse ip = reverse ip := by
  induction ips generalizing reverse with
  | nil => rfl
  | cons first rest ih =>
    have differs : ip ≠ first := List.ne_of_not_mem_cons absent
    exact (ih (List.not_mem_of_not_mem_cons absent)).trans (repointReverse_other differs)

theorem repoint_agree {ips : List Ipv6Addr} (member : ip ∈ ips) :
    AgreeAt table (ips.foldl (DnsTables.repointReverse table) reverse) ip := by
  induction ips generalizing reverse with
  | nil => cases member
  | cons first rest ih =>
    by_cases again : ip ∈ rest
    · exact ih again
    · obtain rfl : ip = first := (List.mem_cons.mp member).resolve_right again
      exact repointReverse_agree.congr (repoint_other again) fun _ _ => Iff.rfl

end

/-! ## One call -/

namespace DnsTables

variable {t : DnsTables} {network hostname : Name} {ipv6 : Ipv6Addr}
  {entries : List (Name × Ipv6Addr)}

/-- The names after an update: the address has lost its other names of the network. -/
theorem addressOf_updateHostname (valid : isValidHostname hostname = true) (network' name : Name) :
    addressOf (t.updateHostname network hostname ipv6).table network' name =
      if network' = network then
        if name = hostname then some ipv6
        else (addressOf t.table network name).filter (· != ipv6)
      else addressOf t.table network' name := by
  unfold updateHostname
  rw [if_neg (by simp [valid]), addressOf_insert]
  refine if_congr Iff.rfl ?_ rfl
  split
  · next same => rw [same, AList.lookup_insert]
  · next other =>
    rw [AList.lookup_insert_ne other, HashMap.lookup_retain, addressOf]
    cases t.table.lookup network with
    | none => rfl
    | some hosts =>
      have kept : (fun addr : Ipv6Addr => name == hostname || addr != ipv6) = (· != ipv6) := by
        funext addr
        rw [beq_eq_false_iff_ne.mpr other, Bool.false_or]
      rw [kept]
      rfl

theorem reverse_updateHostname (valid : isValidHostname hostname = true) :
    (t.updateHostname network hostname ipv6).reverse =
      Function.update t.reverse ipv6 (some (hostname, network)) := by
  unfold updateHostname
  rw [if_neg (by simp [valid])]

theorem updateHostname_agree_iff (agree : t.Agree) :
    (t.updateHostname network hostname ipv6).Agree ↔
      ¬TakesName t (.updateHostname network hostname ipv6) := by
  by_cases valid : isValidHostname hostname = true
  swap
  · have same : t.updateHostname network hostname ipv6 = t := if_pos (by simpa using valid)
    rw [same]
    exact ⟨fun _ takes => valid takes.1, fun _ => agree⟩
  constructor
  · rintro after ⟨-, old, differs, -, named⟩
    -- the reverse entry of the old address still names the host that lost it
    have still := (after old).names hostname network
      (by rwa [reverse_updateHostname valid, Function.update_of_ne differs])
    rw [addressOf_updateHostname valid, if_pos rfl, if_pos rfl] at still
    exact differs (Option.some.inj still).symm
  · intro spares ip
    by_cases same : ip = ipv6
    · subst same
      refine ⟨fun name network' named => ?_, fun _ _ _ => ?_⟩
      · rw [reverse_updateHostname valid, Function.update_self] at named
        cases named
        rw [addressOf_updateHostname valid, if_pos rfl, if_pos rfl]
      · rw [reverse_updateHostname valid, Function.update_self]
        rfl
    · refine ⟨fun name network' named => ?_, fun network' name at_host => ?_⟩
      · rw [reverse_updateHostname valid, Function.update_of_ne same] at named
        have before := (agree ip).names name network' named
        rw [addressOf_updateHostname valid]
        split
        · next here =>
          subst here
          split
          · next taken =>
            subst taken
            exact absurd ⟨valid, ip, same, before, named⟩ spares
          · rw [before, Option.filter_some, if_pos (bne_iff_ne.mpr same)]
        · exact before
      · rw [reverse_updateHostname valid, Function.update_of_ne same]
        rw [addressOf_updateHostname valid] at at_host
        split at at_host
        · split at at_host
          · exact absurd (Option.some.inj at_host).symm same
          · exact (agree ip).found _ _ (Option.filter_eq_some_iff.mp at_host).1
        · exact (agree ip).found _ _ at_host

theorem addressOf_removeHostnameByIp (network' name : Name) :
    addressOf (t.removeHostnameByIp network ipv6).table network' name =
      if network' = network then (addressOf t.table network name).filter (· != ipv6)
      else addressOf t.table network' name := by
  unfold removeHostnameByIp
  cases at_network : t.table.lookup network with
  | none =>
    by_cases same : network' = network
    · rw [if_pos same, same]
      unfold addressOf
      rw [at_network]
      rfl
    · exact (if_neg same).symm
  | some hosts =>
    rw [addressOf_insert]
    refine if_congr Iff.rfl ?_ rfl
    rw [HashMap.lookup_retain, addressOf, at_network]
    rfl

theorem removeHostnameByIp_agree (agree : t.Agree) : (t.removeHostnameByIp network ipv6).Agree := by
  intro ip
  by_cases same : ip = ipv6
  · subst same
    exact repointReverse_agree
  · refine (agree ip).congr (repointReverse_other same) fun network' name => ?_
    rw [addressOf_removeHostnameByIp]
    split
    · next here =>
      rw [here, Option.filter_eq_some_iff]
      exact and_iff_left (bne_iff_ne.mpr same)
    · exact Iff.rfl

theorem removeNetwork_agree (agree : t.Agree) : (t.removeNetwork network).Agree := by
  unfold removeNetwork
  cases at_network : t.table.lookup network with
  | none => exact agree
  | some hosts =>
    intro ip
    by_cases freed : ip ∈ values hosts
    · exact repoint_agree freed
    · refine (agree ip).congr (repoint_other freed) fun network' name => ?_
      rw [addressOf_erase]
      split
      · next here =>
        refine ⟨nofun, fun at_host => absurd (mem_values.mpr ⟨name, ?_⟩) freed⟩
        rwa [here, addressOf, at_network] at at_host
      · exact Iff.rfl

/-- What the loop over a roster leaves. -/
theorem syncEntries_eq (network : Name) (entries : List (Name × Ipv6Addr))
    (reverse : ReverseLookupTable) :
    (∀ name, (entries.foldl (fun sofar entry => syncEntry network entry sofar)
      (∅, reverse)).1.lookup name = rosterAddress entries name) ∧
    ∀ ip, (entries.foldl (fun sofar entry => syncEntry network entry sofar) (∅, reverse)).2 ip =
      match rosterName entries ip with
      | some name => some (name, network)
      | none => reverse ip := by
  unfold rosterAddress rosterName validEntries
  rw [← List.foldr_reverse]
  -- from the last entry to the first: a later entry is met before the earlier ones
  induction entries.reverse with
  | nil => exact ⟨fun _ => rfl, fun _ => rfl⟩
  | cons entry rest ih =>
    obtain ⟨hosts, names⟩ := ih
    rw [List.foldr_cons, syncEntry]
    by_cases valid : isValidHostname entry.1 = true
    · rw [if_neg (by simp [valid]), List.filter_cons, if_pos valid]
      refine ⟨fun name => ?_, fun ip => ?_⟩
      · rw [List.find?_cons]
        by_cases same : entry.1 = name
        · rw [← same, AList.lookup_insert, decide_eq_true rfl]
          rfl
        · rw [AList.lookup_insert_ne (Ne.symm same), hosts, decide_eq_false same]
      · rw [List.find?_cons]
        by_cases same : entry.2 = ip
        · rw [← same, decide_eq_true rfl]
          exact Function.update_self _ _ _
        · rw [decide_eq_false same]
          exact (Function.update_of_ne (Ne.symm same) _ _).trans (names ip)
    · rw [if_pos (by simpa using valid), List.filter_cons, if_neg valid]
      exact ⟨hosts, names⟩

theorem mem_dropped (t : DnsTables) (network : Name) (ip : Ipv6Addr)
    (hosts : ∀ name, current.lookup name = rosterAddress entries name) :
    ip ∈ dropped (t.table.lookup network) current ↔
      (∃ name, addressOf t.table network name = some ip) ∧
        ¬∃ name, rosterAddress entries name = some ip := by
  unfold dropped
  rw [List.mem_filter]
  refine and_congr ?_ ?_
  · unfold addressOf
    cases t.table.lookup network with
    | none => simp
    | some previous =>
      rw [Option.toList_some, List.flatMap_singleton, mem_values]
      exact Iff.rfl
  · rw [Bool.not_eq_true', List.any_eq_false]
    constructor
    · rintro absent ⟨name, found⟩
      exact absent ip (mem_values.mpr ⟨name, (hosts name).trans found⟩) (beq_self_eq_true ip)
    · intro absent new member same
      obtain ⟨name, found⟩ := mem_values.mp member
      exact absent ⟨name, (hosts name).symm.trans (found.trans (congrArg some (eq_of_beq same)))⟩

/-- The tables after a roster, address by address. -/
theorem syncNetworkHostnames_eq (t : DnsTables) (network : Name)
    (entries : List (Name × Ipv6Addr)) :
    (∀ network' name, addressOf (t.syncNetworkHostnames network entries).table network' name =
      if network' = network then rosterAddress entries name else addressOf t.table network' name) ∧
    (∀ ip, (∃ name, addressOf t.table network name = some ip) →
      (¬∃ name, rosterAddress entries name = some ip) →
      AgreeAt (t.syncNetworkHostnames network entries).table
        (t.syncNetworkHostnames network entries).reverse ip) ∧
    ∀ ip, ((∃ name, addressOf t.table network name = some ip) →
      ∃ name, rosterAddress entries name = some ip) →
      (t.syncNetworkHostnames network entries).reverse ip =
        match rosterName entries ip with
        | some name => some (name, network)
        | none => t.reverse ip := by
  obtain ⟨hosts, names⟩ := syncEntries_eq network entries t.reverse
  have dropped_iff (ip : Ipv6Addr) := mem_dropped t network ip hosts
  refine ⟨fun network' name => ?_, fun ip before gone => ?_, fun ip kept => ?_⟩
  · exact (addressOf_insert network').trans (if_congr Iff.rfl (hosts name) rfl)
  · exact repoint_agree ((dropped_iff ip).mpr ⟨before, gone⟩)
  · refine (repoint_other fun member => ?_).trans (names ip)
    obtain ⟨before, gone⟩ := (dropped_iff ip).mp member
    exact gone (kept before)

theorem syncNetworkHostnames_agree_iff (agree : t.Agree) :
    (t.syncNetworkHostnames network entries).Agree ↔
      ¬TakesName t (.syncNetworkHostnames network entries) := by
  obtain ⟨holds, repointed, named⟩ := syncNetworkHostnames_eq t network entries
  constructor
  · rintro after ⟨ip, name, last, taken, kept⟩
    have back := named ip kept
    rw [last] at back
    have still := (after ip).names name network back
    rw [holds, if_pos rfl] at still
    exact taken still
  · intro spares ip
    by_cases kept : (∃ name, addressOf t.table network name = some ip) →
        ∃ name, rosterAddress entries name = some ip
    swap
    · exact repointed ip (Classical.not_imp.mp kept).1 (Classical.not_imp.mp kept).2
    have back := named ip kept
    cases last : rosterName entries ip with
    | some name =>
      rw [last] at back
      have own : rosterAddress entries name = some ip := by
        by_contra taken
        exact spares ⟨ip, name, last, taken, kept⟩
      refine ⟨fun name' network' is => ?_, fun _ _ _ => by rw [back]; rfl⟩
      rw [back] at is
      cases is
      rw [holds, if_pos rfl, own]
    | none =>
      rw [last] at back
      -- no entry has the address, so the network neither holds nor held it
      have absent : ¬∃ name, rosterAddress entries name = some ip := by
        rintro ⟨name, found⟩
        obtain ⟨entry, at_entry, rfl⟩ := Option.map_eq_some_iff.mp found
        have missing := Option.map_eq_none_iff.mp last
        rw [List.find?_eq_none] at missing
        exact missing entry (List.mem_of_find?_eq_some at_entry) (decide_eq_true rfl)
      refine (agree ip).congr back fun network' name => ?_
      rw [holds]
      split
      · next here =>
        rw [here]
        exact ⟨fun found => absurd ⟨name, found⟩ absent,
          fun found => absurd (kept ⟨name, found⟩) absent⟩
      · exact Iff.rfl

end DnsTables

/-! ## Every sequence of calls -/

variable {table : HostnameTable} {t : DnsTables}

theorem Rehashed.addressOf_eq (same : Rehashed table table') :
    addressOf table' = addressOf table := by
  funext network hostname
  exact (same.hosts network hostname).symm

theorem Rehashed.agree (same : Rehashed t.table table) :
    DnsTables.Agree ⟨table, t.reverse⟩ ↔ t.Agree := by
  refine forall_congr' fun ip => ⟨fun agree => ?_, fun agree => ?_⟩
  · exact agree.congr rfl fun _ _ => by rw [same.addressOf_eq]
  · exact agree.congr rfl fun _ _ => by rw [same.addressOf_eq]

theorem Rehashed.takesName (same : Rehashed t.table table) (call : DnsCall) :
    TakesName ⟨table, t.reverse⟩ call ↔ TakesName t call := by
  cases call <;> simp only [TakesName, same.addressOf_eq]

/-- One call keeps the agreement exactly if it takes no name away. -/
theorem dnsStep_agree_iff (step : dnsStep t call out t') (agree : t.Agree) :
    t'.Agree ↔ ¬TakesName t call := by
  obtain ⟨table, same, rfl⟩ := step
  have agree' := same.agree.mpr agree
  rw [← same.takesName]
  cases call with
  | updateHostname network hostname ipv6 => exact DnsTables.updateHostname_agree_iff agree'
  | removeHostnameByIp network ipv6 =>
    exact iff_of_true (DnsTables.removeHostnameByIp_agree agree') id
  | syncNetworkHostnames network entries => exact DnsTables.syncNetworkHostnames_agree_iff agree'
  | removeNetwork network => exact iff_of_true (DnsTables.removeNetwork_agree agree') id

theorem agree_empty : DnsTables.empty.Agree := fun _ => ⟨nofun, nofun⟩

/-- The name of a host, with its network and the zone. -/
def fullName (hostname network : Name) : Name := hostname ++ '.' :: network ++ zoneSuffix

/-- A PTR answer names a host that has the queried address, and whose name resolves to it
unless the name of the network has a dot. -/
def PtrResolves (t : DnsTables) : Prop :=
  ∀ packet question name reply qname target, handlePtrQuery packet question name t.reverse =
    some reply → (qname, RData.ptr target) ∈ reply.answers →
    ∃ ip hostname network, parsePtrName name = some (.v6 ip) ∧
      target = fullName hostname network ++ ['.'] ∧ addressOf t.table network hostname = some ip ∧
      ('.' ∉ network → resolveName (fullName hostname network) zoneSuffix t.table = some ip)

theorem resolveName_fullName (found : addressOf table network hostname = some ip)
    (plain : '.' ∉ network) :
    resolveName (fullName hostname network) zoneSuffix table = some ip := by
  obtain ⟨hosts, at_network, at_host⟩ := Option.bind_eq_some_iff.mp found
  rw [resolveName, fullName, beforeEnd_append]
  dsimp only
  rw [rsplitOnce_append hostname plain, Option.bind_some, at_network]
  exact at_host

theorem DnsTables.Agree.ptrResolves (agree : t.Agree) : PtrResolves t := by
  intro packet question name reply qname target answered carries
  unfold handlePtrQuery at answered
  split at answered
  · next ip parsed =>
    split at answered
    · next hostname network named =>
      cases answered
      have answer := List.mem_singleton.mp carries
      have found := (agree ip).names hostname network named
      refine ⟨ip, hostname, network, parsed, ?_, found, resolveName_fullName found⟩
      exact RData.ptr.inj (congrArg Prod.snd answer)
    · cases (Option.ite_none_right_eq_some.1 answered).2
      cases carries
  · cases answered

/-- **The tables agree after every call of a sequence** exactly if no call takes a name away
from an address and leaves its reverse entry, and then PTR answers resolve back. -/
theorem tables_agree_iff {h : List DnsEntry} {t : DnsTables} (run : Run dnsStep .empty h t) :
    ((∀ e ∈ h, e.after.Agree) ↔ ∀ e ∈ h, ¬TakesName e.before e.act) ∧
      ((∀ e ∈ h, ¬TakesName e.before e.act) → t.Agree ∧ PtrResolves t) := by
  obtain ⟨throughout, reached⟩ := run.always_iff
    (Q := fun e => ¬TakesName e.before e.act) agree_empty dnsStep_agree_iff
  exact ⟨throughout, fun spares => ⟨reached spares, (reached spares).ptrResolves⟩⟩

theorem Rehashed.refl (table : HostnameTable) : Rehashed table table :=
  ⟨fun _ => rfl, fun _ _ => rfl⟩

def DnsCall.entry (t : DnsTables) (call : DnsCall) : DnsEntry := ⟨t, call, (), call.apply t⟩

theorem DnsCall.entry_step (t : DnsTables) (call : DnsCall) : dnsStep t call () (call.apply t) :=
  ⟨t.table, .refl _, rfl⟩

def dnsNamed : DnsEntry :=
  DnsCall.entry .empty (.updateHostname "home".toList "nas".toList 1)

def dnsNamedAgain : DnsEntry :=
  DnsCall.entry dnsNamed.after (.syncNetworkHostnames "work".toList [("nas".toList, 1)])

def dnsLeft : DnsEntry := DnsCall.entry dnsNamedAgain.after (.removeNetwork "home".toList)

def dnsRenamed : DnsEntry :=
  DnsCall.entry dnsNamed.after (.updateHostname "home".toList "nas".toList 2)

/-- A peer of two networks that leaves one of them. -/
theorem tables_agree_left : dnsLeft.after.Agree ∧ PtrResolves dnsLeft.after := by
  have run : Run dnsStep .empty [dnsNamed, dnsNamedAgain, dnsLeft] dnsLeft.after :=
    ((Run.nil.snoc (DnsCall.entry_step _ _)).snoc (DnsCall.entry_step _ _)).snoc
      (DnsCall.entry_step _ _)
  refine (tables_agree_iff run).2 ?_
  intro e member
  simp only [List.mem_cons, List.not_mem_nil, or_false] at member
  rcases member with rfl | rfl | rfl
  · rintro ⟨-, old, -, found, -⟩
    cases found
  · rintro ⟨ip, hostname, last, other, -⟩
    -- the only entry gives the address its name
    obtain ⟨entry, at_entry, rfl⟩ := Option.map_eq_some_iff.mp last
    obtain rfl : entry = ("nas".toList, 1) := by
      have member := List.mem_of_find?_eq_some at_entry
      exact List.mem_singleton.mp (List.mem_of_mem_filter member)
    have same := List.find?_some at_entry
    rw [decide_eq_true_iff] at same
    rw [← same] at other
    exact other (by decide)
  · exact id

/-- Another address takes the name, and the first one's reverse entry still names it. -/
theorem tables_disagree_renamed :
    Run dnsStep .empty [dnsNamed, dnsRenamed] dnsRenamed.after ∧
      dnsRenamed.after.reverse 1 = some ("nas".toList, "home".toList) ∧
      addressOf dnsRenamed.after.table "home".toList "nas".toList = some 2 := by
  refine ⟨(Run.nil.snoc (DnsCall.entry_step _ _)).snoc (DnsCall.entry_step _ _), ?_, ?_⟩
  · decide
  · decide

end Rayfish
