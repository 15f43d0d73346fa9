import Rayfish.Deploy.Union

/-!
# Expanding an expanded spec

Without groups and aliases every name stands for itself, so expanding a result again keeps
it, as long as no name it holds reads as an exclusion that it was not expanded from: a
group may have the member `*-x`, which is emitted as a host and is a target exclusion the
next time. `expansion_exact_iff` has the condition, and `expansion_not_repeatable` a spec
that fails it.
-/

namespace Rayfish

open Lib DeployTables

/-! ## Canonical exclusions -/

/-- The selector is what valid hostnames expand to. -/
def CanonicalExclusion (selector : Name) : Prop :=
  ∃ hosts : Finset Name, hosts ≠ ∅ ∧ (∀ host ∈ hosts, isValidHostname host = true) ∧
    selector = DeployTables.exclusionOf hosts

variable {name host peer : Name}

section

variable (valid : isValidHostname name = true)

include valid

theorem chars_of_isValidHostname (member : c ∈ name) :
    (c.isLower || c.isDigit || c == '-') = true := by
  unfold isValidHostname at valid
  split at valid
  · cases valid
  · split at valid
    · cases valid
    · exact List.all_eq_true.mp valid c member

theorem ne_nil_of_isValidHostname : name ≠ [] := by
  rintro rfl
  cases valid

theorem not_isExclusion_of_valid : isExclusion name = false := by
  refine Bool.eq_false_iff.mpr fun excludes => ?_
  obtain ⟨rest, rfl⟩ := afterStart_isSome_iff.mp excludes
  have star : ('*'.isLower || '*'.isDigit || '*' == '-') = true :=
    chars_of_isValidHostname valid (List.mem_append_left rest List.mem_cons_self)
  exact absurd star (by decide)

end

theorem afterStart_exclusionOf (hosts : Finset Name) :
    afterStart "*-".toList (DeployTables.exclusionOf hosts) =
      some (List.intercalate [','] (sorted (· ≤ ·) hosts)) := rfl

/-- The terms of an exclusion of names without commas are those names. -/
theorem splitOn_sorted (filled : hosts ≠ ∅) (single : ∀ host ∈ hosts, ',' ∉ host) :
    (List.intercalate [','] (sorted (· ≤ ·) hosts)).splitOn ',' = sorted (· ≤ ·) hosts := by
  refine List.splitOn_intercalate ',' (fun host member => single host ((mem_sorted _).mp member)) ?_
  intro none
  refine filled (Finset.eq_empty_of_forall_notMem fun host member => ?_)
  exact List.not_mem_nil (none ▸ (mem_sorted (· ≤ ·)).mpr member)

/-- The terms of a selector that is accepted are valid hostnames. -/
theorem valid_of_parseExcludedPeers (started : afterStart "*-".toList selector = some terms)
    (parsed : parseExcludedPeers selector = .ok found) :
    ∀ term ∈ terms.splitOn ',', isValidHostname term = true := by
  obtain ⟨split, read, parsed⟩ := bind_ok_iff.mp parsed
  obtain rfl := parseTerms_ok read
  rw [started] at parsed
  obtain ⟨hosts, mapped, -⟩ := bind_ok_iff.mp parsed
  obtain ⟨g, each, -⟩ := mapM_ok_iff.mp mapped
  intro term member
  have ok := each term member
  by_contra invalid
  rw [if_neg invalid] at ok
  cases ok

/-- An exclusion of valid hostnames is accepted. -/
theorem parseExcludedPeers_exclusionOf (filled : hosts ≠ ∅)
    (valid : ∀ host ∈ hosts, isValidHostname host = true) :
    parseExcludedPeerTerms (DeployTables.exclusionOf hosts) = .ok (some (sorted (· ≤ ·) hosts)) ∧
      ∃ found, parseExcludedPeers (DeployTables.exclusionOf hosts) = .ok found := by
  have single : ∀ host ∈ hosts, ',' ∉ host := fun host member comma =>
    absurd (chars_of_isValidHostname (valid host member) comma) (by decide)
  have terms : parseExcludedPeerTerms (DeployTables.exclusionOf hosts) =
      .ok (some (sorted (· ≤ ·) hosts)) := by
    unfold parseExcludedPeerTerms
    rw [afterStart_exclusionOf]
    dsimp only
    rw [splitOn_sorted filled single, if_pos]
    refine List.all_eq_true.mpr fun host member => ?_
    have := ne_nil_of_isValidHostname (valid host ((mem_sorted _).mp member))
    simpa using this
  refine ⟨terms, some (sorted (· ≤ ·) (sorted (· ≤ ·) hosts).toFinset), ?_⟩
  refine bind_ok_iff.mpr ⟨_, terms, bind_ok_iff.mpr ⟨sorted (· ≤ ·) hosts, ?_, rfl⟩⟩
  refine mapM_ok_iff.mpr ⟨id, fun host member => ?_, (List.map_id _).symm⟩
  exact if_pos (valid host ((mem_sorted _).mp member))

/-! ## Tables without groups and aliases -/

namespace DeployTables

section Bare

variable {t : DeployTables} (noAliases : t.aliases = ∅) (noGroups : t.groups = ∅)

include noAliases

theorem memberHosts_bare (name : Name) : t.memberHosts name = [name] := by
  unfold memberHosts
  rw [noAliases, Finmap.lookup_empty, ite_self]

theorem excludedHosts_bare (name : Name) : t.excludedHosts name = .ok [name] := by
  unfold excludedHosts
  rw [noAliases, Finmap.lookup_empty]

include noGroups

theorem resolveName_bare (name : Name) : t.resolveName name = [name] := by
  unfold resolveName
  rw [noGroups, Finmap.lookup_empty, memberHosts_bare noAliases, ite_self]

theorem unresolved_bare (name : Name) : t.unresolved name = [] := by
  unfold unresolved
  rw [noGroups, noAliases]
  split
  · rfl
  · simp

theorem nameDenotes_bare : t.NameDenotes name host ↔ host = name := by
  rw [← mem_resolveName, resolveName_bare noAliases noGroups, List.mem_singleton]

theorem termDenotes_bare : t.TermDenotes term host ↔ host = term := by
  unfold TermDenotes
  rw [noGroups, Finmap.lookup_empty, Option.getD_none]
  simp only [List.mem_singleton, exists_eq_left, noAliases, Finmap.lookup_empty]

/-- A canonical exclusion stands for itself. -/
theorem allowNames_canonical (canonical : CanonicalExclusion selector) :
    t.allowNames selector = .ok [selector] := by
  obtain ⟨hosts, filled, valid, rfl⟩ := canonical
  obtain ⟨terms, found, parsed⟩ := parseExcludedPeers_exclusionOf filled valid
  have expanded : t.expandExclusion (exclusionOf hosts) = .ok (exclusionOf hosts) := by
    have listed : ((sorted (· ≤ ·) hosts).flatMap fun name =>
        (t.groups.lookup name).getD [name]).mapM t.excludedHosts =
          .ok ((sorted (· ≤ ·) hosts).map fun name => [name]) := by
      have plain : ((sorted (· ≤ ·) hosts).flatMap fun name =>
          (t.groups.lookup name).getD [name]) = sorted (· ≤ ·) hosts := by
        simp only [noGroups, Finmap.lookup_empty, Option.getD_none, List.flatMap_singleton']
      rw [plain]
      exact mapM_ok_iff.mpr ⟨_, fun name _ => excludedHosts_bare noAliases name, rfl⟩
    have flat : (((sorted (· ≤ ·) hosts).map fun name => [name]).flatten).toFinset = hosts := by
      rw [← List.flatMap_def, List.flatMap_singleton', sorted_toFinset]
    refine bind_ok_iff.mpr ⟨_, terms, bind_ok_iff.mpr ⟨_, listed, ?_⟩⟩
    rw [flat, if_neg filled]
    exact bind_ok_iff.mpr ⟨found, parsed, rfl⟩
  unfold allowNames
  rw [expanded]
  rfl

/-- What an accepted exclusion expands to is canonical. -/
theorem canonical_of_allowNames (accepted : t.allowNames peer = .ok names) (member : name ∈ names)
    (excludes : isExclusion name = true) : CanonicalExclusion name := by
  unfold allowNames at accepted
  split at accepted
  · next starts =>
    obtain ⟨terms, started⟩ := Option.isSome_iff_exists.mp starts
    obtain ⟨selector, expanded, rfl⟩ := map_ok_iff.mp accepted
    obtain rfl := List.mem_singleton.mp member
    obtain ⟨hosts, denoted, filled, rfl, found, parsed⟩ := expandExclusion_ok expanded started
    have single : ∀ host ∈ hosts, ',' ∉ host := by
      intro host listed
      obtain ⟨term, split, denotes⟩ := (denoted host).mp listed
      rw [termDenotes_bare noAliases noGroups] at denotes
      exact denotes ▸ not_mem_of_mem_splitOn split
    refine ⟨hosts, filled, fun host listed => ?_, rfl⟩
    refine valid_of_parseExcludedPeers (afterStart_exclusionOf hosts) parsed host ?_
    rw [splitOn_sorted filled single]
    exact (mem_sorted _).mpr listed
  · next plain =>
    obtain rfl := Except.ok.inj accepted
    rw [resolveName_bare noAliases noGroups] at member
    obtain rfl := List.mem_singleton.mp member
    exact absurd excludes plain

theorem allowNames_bare (canonical : isExclusion peer = true → CanonicalExclusion peer) :
    t.allowNames peer = .ok [peer] := by
  by_cases excludes : isExclusion peer = true
  · exact allowNames_canonical noAliases noGroups (canonical excludes)
  · unfold allowNames
    rw [if_neg excludes, resolveName_bare noAliases noGroups]

/-- The hosts of a second expansion do not read as exclusions. -/
theorem not_isExclusion_of_targeted (targeted : t.Targeted fw host) : isExclusion host = false := by
  rcases targeted.2 with joined | ⟨name, declared, denotes⟩
  · exact not_isExclusion_of_valid (t.valid host joined)
  · rw [nameDenotes_bare noAliases noGroups] at denotes
    rw [denotes]
    exact (Finset.mem_filter.mp declared).2.2

theorem not_isExclusion_of_enrolled (enrolled : t.Enrolled fw host) : isExclusion host = false := by
  rcases enrolled with ⟨-, rfl | targeted⟩ | ⟨subject, rules, held, denotes⟩
  · exact isExclusion_wildcard
  · exact not_isExclusion_of_targeted noAliases noGroups targeted
  · unfold SubjectDenotes at denotes
    cases started : afterStart "*-".toList subject with
    | some terms =>
      rw [started] at denotes
      exact not_isExclusion_of_targeted noAliases noGroups denotes.1
    | none =>
      rw [started] at denotes
      obtain rfl := (nameDenotes_bare noAliases noGroups).mp denotes
      unfold isExclusion
      rw [started]
      rfl

/-- A map whose names stand for themselves is kept. -/
theorem expandAllows_bare
    (kept : ∀ peer spec, allows.lookup peer = some spec → combineSpec none spec = spec)
    (canonical : ∀ peer spec, allows.lookup peer = some spec → isExclusion peer = true →
      CanonicalExclusion peer) : t.expandAllows allows = .ok allows := by
  refine bind_ok_iff.mpr ⟨(OrdMap.iter (· ≤ ·) allows).map fun pair => [pair],
    mapM_ok_iff.mpr ⟨_, ?_, rfl⟩, congrArg Except.ok ?_⟩
  · rintro ⟨peer, spec⟩ listed
    have held := (OrdMap.mem_iter _).mp listed
    dsimp only
    rw [allowNames_bare noAliases noGroups (canonical peer spec held)]
    rfl
  · rw [← List.flatMap_def, List.flatMap_singleton', OrdMap.gather_iter _ kept]

theorem resolvedPairs_bare (entries : OrdMap Name ν) :
    ((OrdMap.iter (· ≤ ·) entries).flatMap fun (peer, v) => (t.resolveName peer).map (·, v)) =
      OrdMap.iter (· ≤ ·) entries := by
  simp only [resolveName_bare noAliases noGroups, List.map_cons, List.map_nil,
    List.flatMap_singleton']

end Bare

end DeployTables

/-! ## A second expansion -/

/-- No name that the spec expands to reads as an exclusion, apart from the peers that canonical
exclusions are. -/
structure DeployTables.Settles (t : DeployTables) (fw : DeployNetwork) : Prop where
  plain : ∀ host, t.Enrolled fw host → isExclusion host = false
  canonical : ∀ host peer spec, (specField .allow).Contributes t fw host peer spec →
    isExclusion peer = true → CanonicalExclusion peer

section Again

variable {fw : DeployNetwork} {t : DeployTables} {out : DeployNetwork} {warnings : List Name}
  (accepted : expandFirewall fw t = .ok (out, warnings))

include accepted

/-- A merged value is adopted as it is. -/
theorem kept_of_expanded (field : HostField ν)
    (held : out.lookup host = some rules) (entry : (field.entries rules).lookup peer = some v) :
    field.combine none v = v := by
  have gathered := gathered_value accepted field host peer
  have found : field.value out host peer = some v := by rw [HostField.value, held]; exact entry
  rw [found] at gathered
  obtain ⟨vs, merged, -⟩ := gathered
  exact field.merging.kept merged

theorem mergeHost_expanded (held : out.lookup host = some rules) :
    mergeHost none rules = rules := by
  refine DeployHost.ext ?_ ?_ ?_
  · exact OrdMap.gather_iter _ fun _ _ => kept_of_expanded accepted (specField .allow) held
  · exact OrdMap.gather_iter _ fun _ _ => kept_of_expanded accepted (specField .deny) held
  · exact OrdMap.gather_iter _ fun _ _ => kept_of_expanded accepted sshField held

variable {again : DeployTables} (noAliases : again.aliases = ∅) (noGroups : again.groups = ∅)

include noAliases noGroups

theorem expandEntry_again (targets : Finset Name)
    (held : out.lookup host = some rules) (plain : isExclusion host = false)
    (canonical : ∀ peer spec, rules.allows.lookup peer = some spec → isExclusion peer = true →
      CanonicalExclusion peer) :
    again.expandEntry targets (host, rules) = .ok ([host], rules) := by
  have allows := expandAllows_bare noAliases noGroups
    (fun _ _ => kept_of_expanded accepted (specField .allow) held) canonical
  have denies : again.expandDenies rules.denies = rules.denies := by
    rw [DeployTables.expandDenies, resolvedPairs_bare noAliases noGroups]
    exact OrdMap.gather_iter _ fun _ _ => kept_of_expanded accepted (specField .deny) held
  have ssh : again.expandSsh rules.ssh = rules.ssh := by
    rw [DeployTables.expandSsh, resolvedPairs_bare noAliases noGroups]
    exact OrdMap.gather_iter _ fun _ _ => kept_of_expanded accepted sshField held
  have subjects : again.subjectHosts targets host = .ok [host] := by
    rw [DeployTables.subjectHosts, if_neg (Bool.not_eq_true _ ▸ plain),
      resolveName_bare noAliases noGroups]
  refine bind_ok_iff.mpr ⟨_, allows, bind_ok_iff.mpr ⟨_, subjects, ?_⟩⟩
  rw [denies, ssh]
  rfl

/-- A result is kept when no name in it reads as an exclusion, canonical peers apart. -/
theorem expandFirewall_again
    (plain : ∀ host rules, out.lookup host = some rules → isExclusion host = false)
    (canonical : ∀ host rules, out.lookup host = some rules → ∀ peer spec,
      rules.allows.lookup peer = some spec → isExclusion peer = true → CanonicalExclusion peer) :
    expandFirewall out again = .ok (out, []) := by
  have none : hasTargetExclusions out = false := by
    refine Bool.eq_false_iff.mpr fun some => ?_
    obtain ⟨subject, rules, held, excludes⟩ := hasTargetExclusions_iff.mp some
    rw [plain subject rules held] at excludes
    cases excludes
  unfold expandFirewall
  refine bind_ok_iff.mpr ⟨(OrdMap.iter (· ≤ ·) out).map fun entry => ([entry.1], entry.2), ?_, ?_⟩
  · refine mapM_ok_iff.mpr ⟨_, fun entry listed => ?_, rfl⟩
    have held := (OrdMap.mem_iter _).mp listed
    exact expandEntry_again accepted noAliases noGroups _ held (plain _ _ held) (canonical _ _ held)
  · simp only [none]
    refine congrArg Except.ok (Prod.ext ?_ ?_)
    · have pairs : (((OrdMap.iter (· ≤ ·) out).map fun entry => ([entry.1], entry.2)).flatMap
          fun entry => entry.1.map (·, entry.2)) = OrdMap.iter (· ≤ ·) out := by
        rw [List.flatMap_map]
        exact List.flatMap_singleton' _
      rw [pairs]
      exact OrdMap.gather_iter _ fun host rules held => mergeHost_expanded accepted held
    · have warned : ∀ names : List Name, names.flatMap again.unresolved = [] := fun names =>
        List.flatMap_eq_nil_iff.mpr fun name _ =>
          unresolved_bare noAliases noGroups name
      rw [warned]
      rfl

/-- The names of a result that is kept do not read as exclusions, canonical peers apart. -/
theorem plain_of_again (kept : expandFirewall out again = .ok (out, [])) : t.Settles fw := by
  constructor
  · intro host enrolled
    have held := (expanded_isSome_iff accepted host).mpr enrolled
    exact not_isExclusion_of_enrolled noAliases noGroups ((expanded_isSome_iff kept host).mp held)
  · intro host peer spec contributes excludes
    have held := ((specField .allow).merging.isSome_iff
      (gathered_value accepted (specField .allow) host peer)).mpr ⟨spec, contributes⟩
    obtain ⟨spec', subject, rules, name, listed, -, entry, expands⟩ :=
      ((specField .allow).merging.isSome_iff
        (gathered_value kept (specField .allow) host peer)).mp held
    obtain ⟨part, each, -⟩ := expandFirewall_ok kept
    have expanded := each (subject, rules) ((OrdMap.mem_iter _).mpr listed)
    obtain ⟨names, named⟩ := allowNames_of_expandAllows
      (expandEntry_ok expanded).2.1 entry
    exact canonical_of_allowNames noAliases noGroups named
      ((mem_allowNames named).mpr expands) excludes

theorem again_iff : expandFirewall out again = .ok (out, []) ↔ t.Settles fw := by
  refine ⟨plain_of_again accepted noAliases noGroups, fun settles => ?_⟩
  refine expandFirewall_again accepted noAliases noGroups (fun host rules held => ?_)
    fun host rules held peer spec entry excludes => ?_
  · exact settles.plain host ((expanded_isSome_iff accepted host).mp (held ▸ rfl))
  · have found : ((specField .allow).value out host peer).isSome := by
      rw [HostField.value, held]
      exact Option.isSome_iff_exists.mpr ⟨spec, entry⟩
    obtain ⟨spec', contributes⟩ := ((specField .allow).merging.isSome_iff
      (gathered_value accepted (specField .allow) host peer)).mp found
    exact settles.canonical host peer spec' contributes excludes

end Again

/-! ## The exact union -/

/-- The tokens that a network has for a host and a peer. -/
def HasToken (network : DeployNetwork) (action : Action) (host peer tok : Name) : Prop :=
  ∃ spec ∈ (specField action).value network host peer, tok ∈ specTokens spec

/-- The result of an expansion is the union of the rules of the spec. -/
structure ExactUnion (fw : DeployNetwork) (t : DeployTables) (out : DeployNetwork) : Prop where
  tokens : ∀ action host peer tok, HasToken out action host peer tok ↔
    ∃ subject rules name spec, fw.lookup subject = some rules ∧
      t.SubjectDenotes fw subject host ∧ t.PeerExpands action name peer ∧
      ((specField action).entries rules).lookup name = some spec ∧ tok ∈ specTokens spec
  /-- Rules with a target exclusion give nothing to `*` and to hosts outside the targets. -/
  scope : ∀ action host peer tok, host = wildcard ∨ ¬t.Targeted fw host →
    HasToken out action host peer tok → ∃ subject rules name spec, isExclusion subject = false ∧
      fw.lookup subject = some rules ∧ t.NameDenotes subject host ∧
      t.PeerExpands action name peer ∧
      ((specField action).entries rules).lookup name = some spec ∧ tok ∈ specTokens spec
  /-- Only what the names denote matters. The account lists are the same as lists when no alias
  resolves to a hostname twice; otherwise they grant the same accounts. -/
  split : ∀ t' out' warnings', SameDenotation t t' →
    expandFirewall fw t' = .ok (out', warnings') →
      (∀ host, (out.lookup host).isSome ↔ (out'.lookup host).isSome) ∧
      (∀ action host peer, (specField action).value out host peer =
        (specField action).value out' host peer) ∧
      (∀ host peer, Option.Rel SameAccounts (sshField.value out host peer)
        (sshField.value out' host peer)) ∧
      (t.Distinct → t'.Distinct → out = out')
  again : ∀ again : DeployTables, again.aliases = ∅ → again.groups = ∅ →
    (expandFirewall out again = .ok (out, []) ↔ t.Settles fw)

theorem contributes_spec_iff :
    (∃ spec, (specField action).Contributes t fw host peer spec ∧ tok ∈ specTokens spec) ↔
      ∃ subject rules name spec, fw.lookup subject = some rules ∧
        t.SubjectDenotes fw subject host ∧ t.PeerExpands action name peer ∧
        ((specField action).entries rules).lookup name = some spec ∧ tok ∈ specTokens spec := by
  have expands : ∀ name,
      (specField action).Expands t name peer ↔ t.PeerExpands action name peer := by
    intro name
    cases action with
    | allow | deny => exact Iff.rfl
  constructor
  · rintro ⟨spec, ⟨subject, rules, name, listed, denotes, entry, expanded⟩, member⟩
    exact ⟨subject, rules, name, spec, listed, denotes, (expands name).mp expanded, entry, member⟩
  · rintro ⟨subject, rules, name, spec, listed, denotes, expanded, entry, member⟩
    exact ⟨spec, ⟨subject, rules, name, listed, denotes, entry, (expands name).mpr expanded⟩,
      member⟩

theorem expansion_exact_iff {fw : DeployNetwork} {t : DeployTables} {out : DeployNetwork}
    {warnings : List Name} (accepted : expandFirewall fw t = .ok (out, warnings)) :
    ExactUnion fw t out where
  tokens action host peer tok :=
    (mem_tokens_iff accepted action host peer tok).trans contributes_spec_iff
  scope action host peer tok outside token := by
    obtain ⟨subject, rules, name, spec, listed, denotes, rest⟩ :=
      contributes_spec_iff.mp ((mem_tokens_iff accepted action host peer tok).mp token)
    unfold DeployTables.SubjectDenotes at denotes
    cases started : afterStart "*-".toList subject with
    | some terms =>
      rw [started] at denotes
      obtain ⟨targeted, -⟩ := denotes
      rcases outside with rfl | outside
      · exact absurd rfl targeted.1
      · exact absurd targeted outside
    | none =>
      rw [started] at denotes
      refine ⟨subject, rules, name, spec, ?_, listed, denotes, rest⟩
      rw [isExclusion, started]
      rfl
  split t' out' warnings' same accepted' := by
    refine ⟨fun host => ?_, fun action host peer => ?_, fun host peer => ?_,
      fun distinct distinct' => ?_⟩
    · rw [expanded_isSome_iff accepted, expanded_isSome_iff accepted', same.enrolled]
    · exact eq_of_related (same.value accepted accepted' (specField action) host peer)
    · exact same.value accepted accepted' sshField host peer
    · exact expandFirewall_same same distinct distinct' accepted accepted'
  again _ noAliases noGroups := again_iff accepted noAliases noGroups


/-- A group `web` of two hosts lets any peer but the alias `ops` in on port 22, and the hosts
outside the group deny the peer `web`. -/
def webSpec : DeployNetwork :=
  Finmap.insert "*-web".toList ⟨∅, Finmap.singleton "web".toList "icmp".toList, ∅⟩
    (Finmap.singleton "web".toList ⟨Finmap.singleton "*-ops".toList "tcp:22".toList, ∅, ∅⟩)

def webTables : DeployTables where
  aliases := Finmap.singleton "ops".toList "identity".toList
  groups := Finmap.singleton "web".toList ["a".toList, "b".toList]
  resolveAlias _ := ["laptop".toList]
  current := {"a".toList, "c".toList}
  valid := by decide

theorem webSpec_exact : ∃ out warnings, expandFirewall webSpec webTables = .ok (out, warnings) ∧
    ExactUnion webSpec webTables out ∧
    (specField .allow).value out "b".toList "*-laptop".toList = some "tcp:22".toList ∧
    (specField .deny).value out "c".toList "a".toList = some "icmp".toList := by
  have ran : ((expandFirewall webSpec webTables).toOption.map fun (out, _) =>
      ((specField .allow).value out "b".toList "*-laptop".toList,
        (specField .deny).value out "c".toList "a".toList)) =
      some (some "tcp:22".toList, some "icmp".toList) := by decide +kernel
  cases accepted : expandFirewall webSpec webTables with
  | error e =>
    rw [accepted] at ran
    cases ran
  | ok result =>
    rw [accepted] at ran
    obtain ⟨allowed, denied⟩ := Prod.mk.inj (Option.some.inj ran)
    exact ⟨result.1, result.2, rfl, expansion_exact_iff accepted, allowed, denied⟩

/-- The group `odd` has the member `*-x`. -/
def oddSpec : DeployNetwork :=
  Finmap.singleton "odd".toList ⟨Finmap.singleton "a".toList "tcp:22".toList, ∅, ∅⟩

def oddTables : DeployTables where
  aliases := ∅
  groups := Finmap.singleton "odd".toList ["*-x".toList]
  resolveAlias _ := []
  current := ∅
  valid := by decide

/-- The rule is emitted for a host named `*-x`, which the next expansion reads as every host but
`x`. -/
theorem expansion_not_repeatable : ∃ out warnings,
    expandFirewall oddSpec oddTables = .ok (out, warnings) ∧
    (specField .allow).value out "*-x".toList "a".toList = some "tcp:22".toList ∧
    ∀ again : DeployTables, again.aliases = ∅ → again.groups = ∅ →
      expandFirewall out again ≠ .ok (out, []) := by
  have ran : ((expandFirewall oddSpec oddTables).toOption.map fun (out, _) =>
      (specField .allow).value out "*-x".toList "a".toList) = some (some "tcp:22".toList) := by
    decide +kernel
  cases accepted : expandFirewall oddSpec oddTables with
  | error e =>
    rw [accepted] at ran
    cases ran
  | ok result =>
    rw [accepted] at ran
    have found : (specField .allow).value result.1 "*-x".toList "a".toList =
        some "tcp:22".toList := Option.some.inj ran
    refine ⟨result.1, result.2, rfl, found, fun again noAliases noGroups kept => ?_⟩
    have held : (result.1.lookup "*-x".toList).isSome := by
      cases absent : result.1.lookup "*-x".toList with
      | some rules => rfl
      | none =>
        rw [HostField.value, absent] at found
        cases found
    have plain := not_isExclusion_of_enrolled noAliases noGroups
      ((expanded_isSome_iff kept _).mp held)
    exact absurd plain (by decide)

end Rayfish
