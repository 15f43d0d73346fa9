import Rayfish.Deploy.Expand
import Rayfish.Lib.Steps

/-!
# What the names of a deployment spec denote

Each group, alias, hostname and exclusion denotes a set of hosts, and a peer name expands to
peers. The maps that one entry of a spec expands to hold, for each peer, exactly the values
of the names that expand to it (`HostField.expanded`).
-/

namespace Rayfish

open Lib

/-! ## Denotations -/

variable {name host : Name}

namespace DeployTables

variable (t : DeployTables)

/-- What an alias or hostname denotes. -/
def MemberDenotes (name host : Name) : Prop :=
  if name = wildcard then host = wildcard
  else
    match t.aliases.lookup name with
    | some identity => host ∈ t.resolveAlias identity
    | none => host = name

/-- What a group, alias or hostname denotes. -/
def NameDenotes (name host : Name) : Prop :=
  if name = wildcard then host = wildcard
  else
    match t.groups.lookup name with
    | some members => ∃ member ∈ members, t.MemberDenotes member host
    | none => t.MemberDenotes name host

/-- What a term of a peer exclusion denotes. -/
def TermDenotes (term host : Name) : Prop :=
  ∃ name ∈ (t.groups.lookup term).getD [term],
    match t.aliases.lookup name with
    | some identity => host ∈ t.resolveAlias identity
    | none => host = name

/-- The hosts that a target exclusion ranges over: those that have joined, and those the spec
declares. -/
def Targeted (fw : DeployNetwork) (host : Name) : Prop :=
  host ≠ wildcard ∧
    (host ∈ t.current ∨ ∃ name ∈ expectedHostsForNetwork fw, t.NameDenotes name host)

/-- The hosts a subject denotes. -/
def SubjectDenotes (fw : DeployNetwork) (subject host : Name) : Prop :=
  match afterStart "*-".toList subject with
  | some terms => t.Targeted fw host ∧ ∀ term ∈ terms.splitOn ',', ¬t.NameDenotes term host
  | none => t.NameDenotes subject host

/-- The peers a peer name of an allow or deny rule expands to. -/
def PeerExpands (action : Action) (peer name : Name) : Prop :=
  match action, afterStart "*-".toList peer with
  | .allow, some terms => ∃ hosts : Finset Name,
      (∀ host, host ∈ hosts ↔ ∃ term ∈ terms.splitOn ',', t.TermDenotes term host) ∧
      name = exclusionOf hosts
  | _, _ => t.NameDenotes peer name

theorem mem_memberHosts : host ∈ t.memberHosts name ↔ t.MemberDenotes name host := by
  unfold memberHosts MemberDenotes
  split
  · next same => rw [same, List.mem_singleton]
  · cases t.aliases.lookup name with
    | none => exact List.mem_singleton
    | some identity => exact Iff.rfl

theorem mem_resolveName : host ∈ t.resolveName name ↔ t.NameDenotes name host := by
  unfold resolveName NameDenotes
  split
  · next same => rw [same, List.mem_singleton]
  cases t.groups.lookup name with
  | none => exact t.mem_memberHosts
  | some members =>
    simp only [mem_sorted, List.mem_toFinset, List.mem_flatMap, mem_memberHosts]

theorem mem_targets : host ∈ t.targets fw ↔ t.Targeted fw host := by
  simp only [targets, Targeted, Finset.mem_erase, Finset.mem_union, Finset.mem_biUnion,
    List.mem_toFinset, mem_resolveName]

end DeployTables

/-- The names denote the same hosts, however they are split between groups and aliases. -/
structure SameDenotation (t t' : DeployTables) : Prop where
  current : t.current = t'.current
  name : ∀ name host, t.NameDenotes name host ↔ t'.NameDenotes name host
  term : ∀ term host, t.TermDenotes term host ↔ t'.TermDenotes term host

namespace SameDenotation

variable {t t' : DeployTables} (same : SameDenotation t t') (fw : DeployNetwork)

include same

theorem targeted (host : Name) : t.Targeted fw host ↔ t'.Targeted fw host := by
  simp only [DeployTables.Targeted, same.current, same.name]

theorem subject (subject host : Name) :
    t.SubjectDenotes fw subject host ↔ t'.SubjectDenotes fw subject host := by
  unfold DeployTables.SubjectDenotes
  cases afterStart "*-".toList subject with
  | none => exact same.name subject host
  | some terms => simp only [same.targeted, same.name]

theorem peer (action : Action) (peer name : Name) :
    t.PeerExpands action peer name ↔ t'.PeerExpands action peer name := by
  unfold DeployTables.PeerExpands
  cases action with
  | deny => exact same.name peer name
  | allow =>
    cases afterStart "*-".toList peer with
    | none => exact same.name peer name
    | some terms => simp only [same.term]

end SameDenotation

instance : Nonempty DeployHost := ⟨⟨∅, ∅, ∅⟩⟩

/-! ## Merged specifications -/

/-- What a list of specifications is merged to. -/
def mergeSpecs (specs : List Name) : Option Name :=
  specs.foldl (fun existing spec => some (combineSpec existing spec)) none

theorem specTokens_merged (specs : List Name) :
    specTokens (canonicalSpec (specs.flatMap specTokens).toFinset) =
      sorted (· ≤ ·) (specs.flatMap specTokens).toFinset := by
  refine specTokens_canonicalSpec fun tok member => ?_
  obtain ⟨_, _, member⟩ := List.mem_flatMap.mp (List.mem_toFinset.mp member)
  exact specToken_of_mem member

theorem mergeSpecs_eq (specs : List Name) :
    mergeSpecs specs =
      if specs = [] then none else some (canonicalSpec (specs.flatMap specTokens).toFinset) := by
  induction specs using List.reverseRecOn with
  | nil => rfl
  | append_singleton specs spec ih =>
    have filled : specs ++ [spec] ≠ [] :=
      List.append_ne_nil_of_right_ne_nil specs (List.cons_ne_nil spec [])
    rw [mergeSpecs, List.foldl_append, ← mergeSpecs, ih]
    simp only [List.foldl_cons, List.foldl_nil, combineSpec, mergeSpec, List.flatMap_append,
      List.flatMap_cons, List.flatMap_nil, List.append_nil, List.toFinset_append]
    split
    · next none =>
      rw [none]
      rfl
    · rw [Option.getD_some, specTokens_merged, sorted_toFinset]

/-- What is merged depends on which specifications there are. -/
theorem mergeSpecs_congr (same : ∀ spec, spec ∈ specs ↔ spec ∈ specs') :
    mergeSpecs specs = mergeSpecs specs' := by
  have empty : specs = [] ↔ specs' = [] := by
    simp only [List.eq_nil_iff_forall_not_mem, same]
  have tokens : (specs.flatMap specTokens).toFinset = (specs'.flatMap specTokens).toFinset := by
    ext tok
    simp only [List.mem_toFinset, List.mem_flatMap, same]
  simp only [mergeSpecs_eq, empty, tokens]

theorem mem_specTokens_mergeSpecs :
    (∃ spec ∈ mergeSpecs specs, tok ∈ specTokens spec) ↔ ∃ spec ∈ specs, tok ∈ specTokens spec := by
  rw [mergeSpecs_eq]
  split
  · next none =>
    subst none
    exact iff_of_false (fun ⟨_, absent, _⟩ => nomatch absent)
      fun ⟨_, absent, _⟩ => List.not_mem_nil absent
  · simp only [Option.mem_def, Option.some.injEq, exists_eq_left']
    rw [specTokens_merged, mem_sorted, List.mem_toFinset, List.mem_flatMap]

/-- Merging what was merged before. -/
theorem mergeSpecs_toList (specs : List Name) :
    mergeSpecs (mergeSpecs specs).toList = mergeSpecs specs := by
  rw [mergeSpecs_eq specs]
  split
  · rfl
  rw [Option.toList_some, mergeSpecs_eq, if_neg (List.cons_ne_nil _ _), List.flatMap_cons,
    List.flatMap_nil, List.append_nil, specTokens_merged, sorted_toFinset]

theorem mergeSpecs_append (first : mergeSpecs left = mergeSpecs left')
    (second : mergeSpecs right = mergeSpecs right') :
    mergeSpecs (left ++ right) = mergeSpecs (left' ++ right') := by
  have swap : ∀ left right : List Name, mergeSpecs (left ++ right) = mergeSpecs (right ++ left) :=
    fun left right => mergeSpecs_congr fun spec => by rw [List.mem_append, List.mem_append, or_comm]
  have replace : ∀ {left left'} (right : List Name), mergeSpecs left = mergeSpecs left' →
      mergeSpecs (left ++ right) = mergeSpecs (left' ++ right) := by
    intro left left' right same
    rw [mergeSpecs, mergeSpecs, List.foldl_append, List.foldl_append, ← mergeSpecs, ← mergeSpecs,
      same]
  rw [replace right first, swap, replace left' second, swap]

theorem mergingSpecs : Merging combineSpec fun specs spec => mergeSpecs specs = some spec := by
  have kept : ∀ {specs spec}, mergeSpecs specs = some spec → combineSpec none spec = spec := by
    intro specs spec merged
    have again := mergeSpecs_toList specs
    rw [merged] at again
    exact Option.some.inj again
  refine ⟨?_, fun spec => rfl, fun spec merged => ?_, kept, fun {vs ws a b} first second => ?_⟩
  · rintro _ _ merged rfl
    cases merged
  · rw [mergeSpecs, List.foldl_append, ← mergeSpecs, merged]
    rfl
  · have alone : ∀ {specs spec}, mergeSpecs specs = some spec →
        mergeSpecs specs = mergeSpecs [spec] := fun {specs spec} merged =>
      merged.trans (congrArg some (kept merged)).symm
    rw [mergeSpecs_append (alone first) (alone second)]
    exact congrArg (fun spec => some (combineSpec (some spec) b)) (kept first)

theorem mergedSpecs_eq (merged : mergeSpecs specs = some spec)
    (merged' : mergeSpecs specs' = some spec') (same : ∀ spec, spec ∈ specs ↔ spec ∈ specs') :
    spec = spec' := by
  rw [mergeSpecs_congr same, merged'] at merged
  exact (Option.some.inj merged).symm

/-- Two account lists that grant the same accounts: an empty list grants any but root, and
`*` every account. -/
structure SameAccounts (users users' : List Name) : Prop where
  any : "*".toList ∈ users ↔ "*".toList ∈ users'
  account : "*".toList ∉ users → ∀ name, name ∈ users ↔ name ∈ users'

theorem sameAccounts_of_merged (merged : Merged grants users) (merged' : Merged grants' users')
    (same : ∀ grant, grant ∈ grants ↔ grant ∈ grants') : SameAccounts users users' := by
  have first := mergedUsers_of_merged merged
  have second := mergedUsers_of_merged merged'
  have any : "*".toList ∈ users ↔ "*".toList ∈ users' := by
    simp only [first.any, second.any, same]
  refine ⟨any, fun plain name => ?_⟩
  have plain' := mt any.mpr plain
  have empty : users = [] ↔ users' = [] := by
    simp only [first.nonroot plain, second.nonroot plain', same]
  by_cases none : users = []
  · rw [none, empty.mp none]
  · simp only [first.accounts plain none, second.accounts plain' (mt empty.mpr none), same]

theorem ne_nil_of_merged (merged : Merged grants users) : grants ≠ [] := by
  induction merged with
  | one users => exact List.cons_ne_nil users []
  | both _ _ perm filled _ =>
    rintro rfl
    exact filled (List.append_eq_nil_iff.mp perm.nil_eq.symm).1

theorem mergingGrants : Merging addSshGrant Merged where
  filled := ne_nil_of_merged
  first users := .one users
  next users merged := .both merged (.one users) (List.Perm.refl _)
  kept _ := rfl
  joined first second := .both first second (List.Perm.refl _)

/-! ## One entry -/

namespace DeployTables

variable {t : DeployTables}

theorem parseTerms_ok (parsed : parseExcludedPeerTerms selector = .ok found) :
    found = (afterStart "*-".toList selector).map fun terms => terms.splitOn ',' := by
  unfold parseExcludedPeerTerms at parsed
  split at parsed
  · next none =>
    cases parsed
    rw [none]
    rfl
  · next terms some =>
    dsimp only at parsed
    split at parsed
    · cases parsed
      rw [some]
      rfl
    · cases parsed

theorem mem_excludedHosts (found : t.excludedHosts name = .ok hosts) :
    host ∈ hosts ↔
      match t.aliases.lookup name with
      | some identity => host ∈ t.resolveAlias identity
      | none => host = name := by
  unfold excludedHosts at found
  cases held : t.aliases.lookup name with
  | none =>
    rw [held] at found
    cases found
    exact List.mem_singleton
  | some identity =>
    rw [held] at found
    dsimp only at found
    split at found
    · cases found
    · cases found
      exact Iff.rfl

/-- An accepted exclusion is that of the hosts its terms denote. -/
theorem expandExclusion_ok (accepted : t.expandExclusion selector = .ok expanded)
    (started : afterStart "*-".toList selector = some terms) : ∃ hosts : Finset Name,
      (∀ host, host ∈ hosts ↔ ∃ term ∈ terms.splitOn ',', t.TermDenotes term host) ∧
      hosts ≠ ∅ ∧ expanded = exclusionOf hosts ∧
      ∃ found, parseExcludedPeers (exclusionOf hosts) = .ok found := by
  obtain ⟨found, parsed, accepted⟩ := bind_ok_iff.mp accepted
  obtain rfl := parseTerms_ok parsed
  rw [started] at accepted
  obtain ⟨lists, mapped, accepted⟩ := bind_ok_iff.mp accepted
  obtain ⟨g, each, rfl⟩ := mapM_ok_iff.mp mapped
  dsimp only at accepted
  split at accepted
  · cases accepted
  next filled =>
  obtain ⟨found, valid, accepted⟩ := bind_ok_iff.mp accepted
  obtain rfl := Except.ok.inj accepted
  refine ⟨_, fun host => ?_, filled, rfl, found, valid⟩
  rw [List.mem_toFinset, ← List.flatMap_def, List.mem_flatMap]
  constructor
  · rintro ⟨name, member, held⟩
    obtain ⟨term, term_mem, name_mem⟩ := List.mem_flatMap.mp member
    exact ⟨term, term_mem, name, name_mem, (mem_excludedHosts (each name member)).mp held⟩
  · rintro ⟨term, term_mem, name, name_mem, held⟩
    have member : name ∈ (terms.splitOn ',').flatMap fun name =>
        (t.groups.lookup name).getD [name] := List.mem_flatMap.mpr ⟨term, term_mem, name_mem⟩
    exact ⟨name, member, (mem_excludedHosts (each name member)).mpr held⟩

theorem mem_allowNames (accepted : t.allowNames peer = .ok names) :
    name ∈ names ↔ t.PeerExpands .allow peer name := by
  unfold allowNames isExclusion at accepted
  unfold PeerExpands
  cases started : afterStart "*-".toList peer with
  | none =>
    rw [started] at accepted
    obtain rfl := Except.ok.inj accepted
    exact t.mem_resolveName
  | some terms =>
    rw [started] at accepted
    obtain ⟨selector, expanded, rfl⟩ := map_ok_iff.mp accepted
    obtain ⟨hosts, denoted, -, rfl, -⟩ := expandExclusion_ok expanded started
    rw [List.mem_singleton]
    constructor
    · rintro rfl
      exact ⟨hosts, denoted, rfl⟩
    · rintro ⟨hosts', denoted', rfl⟩
      congr 1
      ext host
      rw [denoted, denoted']

theorem mem_subjectHosts {fw : DeployNetwork} {targets : Finset Name} {subject : Name}
    {hosts : List Name} (accepted : t.subjectHosts targets subject = .ok hosts)
    (ranged : isExclusion subject = true → targets = t.targets fw) :
    host ∈ hosts ↔ t.SubjectDenotes fw subject host := by
  unfold subjectHosts at accepted
  unfold isExclusion at accepted ranged
  unfold SubjectDenotes
  cases started : afterStart "*-".toList subject with
  | none =>
    rw [started] at accepted
    obtain rfl := Except.ok.inj accepted
    exact t.mem_resolveName
  | some terms =>
    rw [started] at accepted ranged
    obtain ⟨found, parsed, accepted⟩ := bind_ok_iff.mp accepted
    obtain rfl := parseTerms_ok parsed
    rw [started] at accepted
    obtain rfl := Except.ok.inj accepted
    rw [List.mem_filter, mem_sorted, ranged rfl, mem_targets]
    simp only [decide_eq_true_eq, List.mem_flatMap, mem_resolveName, not_exists, not_and]

/-- The pairs an allow map is filled with. -/
theorem expandAllows_ok (accepted : t.expandAllows allows = .ok out) : ∃ pairs,
      out = OrdMap.gather combineSpec ∅ pairs ∧ ∀ name spec, (name, spec) ∈ pairs ↔
        ∃ peer, allows.lookup peer = some spec ∧ t.PeerExpands .allow peer name := by
  obtain ⟨lists, mapped, accepted⟩ := bind_ok_iff.mp accepted
  obtain ⟨g, each, rfl⟩ := mapM_ok_iff.mp mapped
  obtain rfl := Except.ok.inj accepted
  refine ⟨_, rfl, fun name spec => ?_⟩
  have listed : ∀ {peer spec'}, allows.lookup peer = some spec' →
      ((name, spec) ∈ g (peer, spec') ↔ spec' = spec ∧ t.PeerExpands .allow peer name) := by
    intro peer spec' held
    obtain ⟨names, named, paired⟩ :=
      map_ok_iff.mp (each (peer, spec') ((OrdMap.mem_iter _).mpr held))
    rw [paired, ← mem_allowNames named, List.mem_map]
    constructor
    · rintro ⟨_, member, ⟨⟩⟩
      exact ⟨rfl, member⟩
    · rintro ⟨rfl, member⟩
      exact ⟨name, member, rfl⟩
  rw [← List.flatMap_def, List.mem_flatMap, Prod.exists]
  constructor
  · rintro ⟨peer, spec', member, pair⟩
    have held := (OrdMap.mem_iter _).mp member
    obtain ⟨rfl, expands⟩ := (listed held).mp pair
    exact ⟨peer, held, expands⟩
  · rintro ⟨peer, held, expands⟩
    exact ⟨peer, spec, (OrdMap.mem_iter _).mpr held, (listed held).mpr ⟨rfl, expands⟩⟩

theorem allowNames_of_expandAllows (accepted : t.expandAllows allows = .ok out)
    (held : allows.lookup peer = some spec) : ∃ names, t.allowNames peer = .ok names := by
  obtain ⟨lists, mapped, -⟩ := bind_ok_iff.mp accepted
  obtain ⟨g, each, -⟩ := mapM_ok_iff.mp mapped
  obtain ⟨names, named, -⟩ := map_ok_iff.mp (each (peer, spec) ((OrdMap.mem_iter _).mpr held))
  exact ⟨names, named⟩

/-- The pairs a map is filled with whose peers are resolved. -/
theorem mem_resolvedPairs {ν : Type} {entries : OrdMap Name ν} {v : ν} :
    ((name, v) ∈ (OrdMap.iter (· ≤ ·) entries).flatMap fun (peer, v) =>
        (t.resolveName peer).map (·, v)) ↔
      ∃ peer, entries.lookup peer = some v ∧ t.NameDenotes peer name := by
  simp only [List.mem_flatMap, List.mem_map, Prod.exists, Prod.mk.injEq, OrdMap.mem_iter,
    mem_resolveName]
  constructor
  · rintro ⟨peer, _, held, _, denoted, rfl, rfl⟩
    exact ⟨peer, held, denoted⟩
  · rintro ⟨peer, held, denoted⟩
    exact ⟨peer, v, held, name, denoted, rfl, rfl⟩

theorem expandEntry_ok {targets : Finset Name} {entry : Name × DeployHost}
    {part : List Name × DeployHost} (accepted : t.expandEntry targets entry = .ok part) :
    t.subjectHosts targets entry.1 = .ok part.1 ∧
      t.expandAllows entry.2.allows = .ok part.2.allows ∧
      part.2.denies = t.expandDenies entry.2.denies ∧ part.2.ssh = t.expandSsh entry.2.ssh := by
  obtain ⟨allows, expanded, accepted⟩ := bind_ok_iff.mp accepted
  obtain ⟨subjects, named, accepted⟩ := bind_ok_iff.mp accepted
  obtain rfl := Except.ok.inj accepted
  exact ⟨named, expanded, rfl, rfl⟩

end DeployTables

/-! ## The maps of a host -/

/-- One of the maps of a host: how its values are merged, and which peers a peer name stands
for in it. -/
structure HostField (ν : Type) where
  entries : DeployHost → OrdMap Name ν
  combine : Option ν → ν → ν
  Merges : List ν → ν → Prop
  merging : Merging combine Merges
  /-- Two merged values that stand for the same. -/
  Same : ν → ν → Prop
  merged_same : ∀ {vs vs' v v'}, Merges vs v → Merges vs' v' → (∀ w, w ∈ vs ↔ w ∈ vs') → Same v v'
  Expands : DeployTables → Name → Name → Prop
  expands_congr : ∀ {t t'}, SameDenotation t t' → ∀ {name peer},
    Expands t name peer ↔ Expands t' name peer
  entries_empty : entries ⟨∅, ∅, ∅⟩ = ∅
  entries_mergeHost : ∀ existing rules, entries (mergeHost existing rules) =
    OrdMap.gather combine (entries (existing.getD ⟨∅, ∅, ∅⟩))
      (OrdMap.iter (· ≤ ·) (entries rules))
  /-- The map of an entry is filled from the peers its names stand for. -/
  expanded : ∀ {t : DeployTables} {targets entry part}, t.expandEntry targets entry = .ok part →
    ∃ pairs, entries part.2 = OrdMap.gather combine ∅ pairs ∧ ∀ name v, (name, v) ∈ pairs ↔
      ∃ peer, (entries entry.2).lookup peer = some v ∧ Expands t peer name

def specField : Action → HostField Name
  | .allow =>
    { entries := DeployHost.allows
      combine := combineSpec
      Merges := fun specs spec => mergeSpecs specs = some spec
      merging := mergingSpecs
      Same := Eq
      merged_same := mergedSpecs_eq
      Expands := fun t => t.PeerExpands .allow
      expands_congr := fun same => same.peer .allow _ _
      entries_empty := rfl
      entries_mergeHost := fun _ _ => rfl
      expanded := fun accepted =>
        DeployTables.expandAllows_ok (DeployTables.expandEntry_ok accepted).2.1 }
  | .deny =>
    { entries := DeployHost.denies
      combine := combineSpec
      Merges := fun specs spec => mergeSpecs specs = some spec
      merging := mergingSpecs
      Same := Eq
      merged_same := mergedSpecs_eq
      Expands := fun t => t.PeerExpands .deny
      expands_congr := fun same => same.peer .deny _ _
      entries_empty := rfl
      entries_mergeHost := fun _ _ => rfl
      expanded := fun accepted => ⟨_, (DeployTables.expandEntry_ok accepted).2.2.1,
        fun _ _ => DeployTables.mem_resolvedPairs⟩ }

def sshField : HostField (List Name) where
  entries := DeployHost.ssh
  combine := addSshGrant
  Merges := Merged
  merging := mergingGrants
  Same := SameAccounts
  merged_same := sameAccounts_of_merged
  Expands t := t.NameDenotes
  expands_congr same := same.name _ _
  entries_empty := rfl
  entries_mergeHost _ _ := rfl
  expanded accepted := ⟨_, (DeployTables.expandEntry_ok accepted).2.2.2,
    fun _ _ => DeployTables.mem_resolvedPairs⟩

namespace HostField

variable {ν : Type} (field : HostField ν) (network : DeployNetwork) (host peer : Name)

/-- What a network has for a host and a peer. -/
def value : Option ν :=
  (network.lookup host).bind fun rules => (field.entries rules).lookup peer

/-- Some rule of the spec gives `host` the value `v` for `peer`. -/
def Contributes (t : DeployTables) (fw : DeployNetwork) (host peer : Name) (v : ν) : Prop :=
  ∃ subject rules name, fw.lookup subject = some rules ∧ t.SubjectDenotes fw subject host ∧
    (field.entries rules).lookup name = some v ∧ field.Expands t name peer

theorem value_eq :
    field.value network host peer =
      (field.entries ((network.lookup host).getD ⟨∅, ∅, ∅⟩)).lookup peer := by
  unfold value
  cases network.lookup host with
  | none => rw [Option.getD_none, field.entries_empty]; rfl
  | some rules => rfl

/-- What a peer has after the rules of several entries were merged into a host. -/
theorem lookup_mergeHosts (peer : Name) (hosts : List DeployHost) (start : Option DeployHost) :
    (field.entries ((hosts.foldl (fun existing rules => some (mergeHost existing rules))
        start).getD ⟨∅, ∅, ∅⟩)).lookup peer =
      (hosts.filterMap fun rules => (field.entries rules).lookup peer).foldl
        (fun existing v => some (field.combine existing v))
        ((field.entries (start.getD ⟨∅, ∅, ∅⟩)).lookup peer) := by
  induction hosts generalizing start with
  | nil => rfl
  | cons rules hosts ih =>
    rw [List.foldl_cons, ih, Option.getD_some, field.entries_mergeHost, OrdMap.lookup_gather,
      OrdMap.valuesAt_iter, List.filterMap_cons]
    cases (field.entries rules).lookup peer with
    | none | some v => rfl

end HostField

end Rayfish
