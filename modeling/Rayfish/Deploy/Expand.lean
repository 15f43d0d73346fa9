import Rayfish.Deploy.Merge

/-!
# Expanding a deployment spec

`expand_firewall` of `apply.rs`: the groups and aliases of one network's rules are replaced
by the hostnames they stand for, and the rules that then meet on a host are merged. A
subject `*-a,b` stands for every current or declared host but those named, and the peer
`*-a,b` for any peer but those named.
-/

namespace Rayfish

open Lib

/-! ## The spec -/

@[ext] structure DeployHost where
  allows : OrdMap Name Name
  denies : OrdMap Name Name
  ssh : OrdMap Name (List Name)

abbrev DeployNetwork := OrdMap Name DeployHost

/-- What names are looked up in. `current` holds the hosts that have joined. -/
structure DeployTables where
  aliases : OrdMap Name Name
  groups : OrdMap Name (List Name)
  /-- The hostnames an identity has joined with. -/
  resolveAlias : Name → List Name
  current : Finset Name
  valid : ∀ host ∈ current, isValidHostname host = true

def wildcard : Name := "*".toList

/-- The name starts with `*-`. -/
def isExclusion (name : Name) : Bool := (afterStart "*-".toList name).isSome

def DeployHost.peers (rules : DeployHost) : Finset Name :=
  rules.allows.keys ∪ rules.denies.keys ∪ rules.ssh.keys

/-- The hostnames, groups and aliases a network names. -/
def expectedHostsForNetwork (fw : DeployNetwork) : Finset Name :=
  ((OrdMap.iter (· ≤ ·) fw).flatMap fun (subject, rules) =>
    subject :: sorted (· ≤ ·) rules.peers).toFinset.filter
      fun name => name ≠ wildcard ∧ isExclusion name = false

namespace DeployTables

variable (t : DeployTables)

/-- What an alias or hostname stands for. -/
def memberHosts (name : Name) : List Name :=
  if name = wildcard then [name]
  else
    match t.aliases.lookup name with
    | some identity => t.resolveAlias identity
    | none => [name]

def resolveName (name : Name) : List Name :=
  if name = wildcard then [name]
  else
    match t.groups.lookup name with
    | some members => sorted (· ≤ ·) (members.flatMap t.memberHosts).toFinset
    | none => t.memberHosts name

/-- The aliases without joined devices that resolving a name comes across. -/
def unresolved (name : Name) : List Name :=
  if name = wildcard then []
  else
    ((t.groups.lookup name).getD [name]).filter fun name =>
      name ≠ wildcard ∧ (t.aliases.lookup name).isSome ∧ t.memberHosts name = []

/-- What an alias or hostname stands for in a peer exclusion. -/
def excludedHosts (name : Name) : Except Name (List Name) :=
  match t.aliases.lookup name with
  | some identity =>
    if t.resolveAlias identity = [] then
      .error ("excluded alias '".toList ++ name ++ "' has no joined devices".toList)
    else .ok (t.resolveAlias identity)
  | none => .ok [name]

/-- The selector for any peer but these hosts. -/
def exclusionOf (hosts : Finset Name) : Name :=
  "*-".toList ++ List.intercalate [','] (sorted (· ≤ ·) hosts)

def expandExclusion (selector : Name) : Except Name Name := do
  match ← parseExcludedPeerTerms selector with
  | none => .error "expected excluded-peer selector".toList
  | some terms =>
    let lists ← (terms.flatMap fun name => (t.groups.lookup name).getD [name]).mapM
      t.excludedHosts
    let hosts := lists.flatten.toFinset
    if hosts = ∅ then
      .error ("excluded-peer selector '".toList ++ selector ++ "' is empty".toList)
    else
      let _ ← parseExcludedPeers (exclusionOf hosts)
      return exclusionOf hosts

/-- The peers an allow rule is emitted for. -/
def allowNames (peer : Name) : Except Name (List Name) :=
  if isExclusion peer then (t.expandExclusion peer).map fun expanded => [expanded]
  else .ok (t.resolveName peer)

end DeployTables

/-! ## The expansion -/

/-- A specification merged into what its key has. -/
def combineSpec (existing : Option Name) (spec : Name) : Name := mergeSpec (existing.getD []) spec

/-- The rules of a host merged into what it has. -/
def mergeHost (existing : Option DeployHost) (rules : DeployHost) : DeployHost :=
  let entry := existing.getD ⟨∅, ∅, ∅⟩
  { allows := OrdMap.gather combineSpec entry.allows (OrdMap.iter (· ≤ ·) rules.allows)
    denies := OrdMap.gather combineSpec entry.denies (OrdMap.iter (· ≤ ·) rules.denies)
    ssh := OrdMap.gather addSshGrant entry.ssh (OrdMap.iter (· ≤ ·) rules.ssh) }

namespace DeployTables

variable (t : DeployTables)

def expandAllows (allows : OrdMap Name Name) : Except Name (OrdMap Name Name) := do
  let pairs ← (OrdMap.iter (· ≤ ·) allows).mapM fun (peer, spec) =>
    (t.allowNames peer).map fun names => names.map (·, spec)
  return OrdMap.gather combineSpec ∅ pairs.flatten

def expandDenies (denies : OrdMap Name Name) : OrdMap Name Name :=
  OrdMap.gather combineSpec ∅ ((OrdMap.iter (· ≤ ·) denies).flatMap fun (peer, spec) =>
    (t.resolveName peer).map (·, spec))

def expandSsh (ssh : OrdMap Name (List Name)) : OrdMap Name (List Name) :=
  OrdMap.gather addSshGrant ∅ ((OrdMap.iter (· ≤ ·) ssh).flatMap fun (peer, users) =>
    (t.resolveName peer).map (·, users))

/-- The hosts that a target exclusion ranges over. -/
def targets (fw : DeployNetwork) : Finset Name :=
  (t.current ∪ (expectedHostsForNetwork fw).biUnion fun name =>
    (t.resolveName name).toFinset).erase wildcard

def subjectHosts (targets : Finset Name) (subject : Name) : Except Name (List Name) :=
  if isExclusion subject then do
    match ← parseExcludedPeerTerms subject with
    | none => .error "expected target exclusion selector".toList
    | some terms =>
      return (sorted (· ≤ ·) targets).filter fun host => host ∉ terms.flatMap t.resolveName
  else .ok (t.resolveName subject)

/-- The hosts of one subject, and what each of them gets. -/
def expandEntry (targets : Finset Name) (entry : Name × DeployHost) :
    Except Name (List Name × DeployHost) := do
  let allows ← t.expandAllows entry.2.allows
  let denies := t.expandDenies entry.2.denies
  let ssh := t.expandSsh entry.2.ssh
  let subjects ← t.subjectHosts targets entry.1
  return (subjects, ⟨allows, denies, ssh⟩)

/-- The names that are resolved for an entry. -/
def resolvedNames (entry : Name × DeployHost) : List Name :=
  (sorted (· ≤ ·) entry.2.allows.keys).filter (fun peer => !isExclusion peer) ++
    sorted (· ≤ ·) entry.2.denies.keys ++ sorted (· ≤ ·) entry.2.ssh.keys ++
    match parseExcludedPeerTerms entry.1 with
    | .ok (some terms) => terms
    | _ => [entry.1]

end DeployTables

def hasTargetExclusions (fw : DeployNetwork) : Bool :=
  (OrdMap.iter (· ≤ ·) fw).any fun entry => isExclusion entry.1

/-- The hosts that an expansion with target exclusions starts from: those it leaves out stay
enrolled, without rules. -/
def enrolled (targets : Finset Name) : DeployNetwork :=
  OrdMap.gather (fun _ host => host) ∅
    ((wildcard :: sorted (· ≤ ·) targets).map (·, ⟨∅, ∅, ∅⟩))

def expandFirewall (fw : DeployNetwork) (t : DeployTables) :
    Except Name (DeployNetwork × List Name) := do
  let targets := if hasTargetExclusions fw then t.targets fw else ∅
  let start := if hasTargetExclusions fw then enrolled targets else ∅
  let parts ← (OrdMap.iter (· ≤ ·) fw).mapM (t.expandEntry targets)
  let out := OrdMap.gather mergeHost start
    (parts.flatMap fun (subjects, rules) => subjects.map (·, rules))
  let declared :=
    if hasTargetExclusions fw then sorted (· ≤ ·) (expectedHostsForNetwork fw) else []
  let names := declared ++ (OrdMap.iter (· ≤ ·) fw).flatMap DeployTables.resolvedNames
  return (out, sorted (· ≤ ·) (names.flatMap t.unresolved).toFinset)

end Rayfish
