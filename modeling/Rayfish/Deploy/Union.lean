import Rayfish.Deploy.Denotation

/-!
# An expanded spec is the union of its rules

What the result of `expand_firewall` has for a host and a peer is merged from exactly the
values that the rules of the spec give it (`gathered_value`): those of the entries whose
subject denotes the host, for the names that expand to the peer. Tables that denote the
same give the same result (`SameDenotation.value`, `expandFirewall_same`).
-/

namespace Rayfish

open Lib

/-! ## The whole expansion -/

theorem enrolled_lookup (targets : Finset Name) (host : Name) :
    (enrolled targets).lookup host =
      if host = wildcard ∨ host ∈ targets then some ⟨∅, ∅, ∅⟩ else none := by
  have last : ∀ n : Nat, (List.replicate n (⟨∅, ∅, ∅⟩ : DeployHost)).foldl (fun _ v => some v)
      none = if n = 0 then none else some ⟨∅, ∅, ∅⟩ := by
    intro n
    rcases Nat.eq_zero_or_pos n with rfl | positive
    · rfl
    · obtain ⟨n, rfl⟩ := Nat.exists_eq_succ_of_ne_zero positive.ne'
      rw [List.replicate_succ', List.foldl_append]
      rfl
  rw [enrolled, OrdMap.lookup_gather, valuesAt_map_pair, Finmap.lookup_empty, last]
  simp only [List.count_eq_zero, List.mem_cons, mem_sorted, ite_not]

/-- The hosts the target exclusions of a spec range over. -/
def DeployTables.ranged (t : DeployTables) (fw : DeployNetwork) : Finset Name :=
  if hasTargetExclusions fw then t.targets fw else ∅

/-- What an expansion starts from. -/
def startOf (fw : DeployNetwork) (targets : Finset Name) (host : Name) : Option DeployHost :=
  if hasTargetExclusions fw ∧ (host = wildcard ∨ host ∈ targets) then some ⟨∅, ∅, ∅⟩ else none

/-- The entries whose rules are merged into a host, as often as they are. -/
def entriesFor (fw : DeployNetwork) (part : Name × DeployHost → List Name × DeployHost)
    (host : Name) : List (Name × DeployHost) :=
  (OrdMap.iter (· ≤ ·) fw).flatMap fun entry => List.replicate ((part entry).1.count host) entry

variable {fw : DeployNetwork} {t : DeployTables} {subject : Name}

/-- The parts of an accepted expansion, one for each subject. -/
theorem expandFirewall_ok (accepted : expandFirewall fw t = .ok (out, warnings)) :
    ∃ part : Name × DeployHost → List Name × DeployHost,
      (∀ entry ∈ OrdMap.iter (· ≤ ·) fw, t.expandEntry (t.ranged fw) entry = .ok (part entry)) ∧
      ∀ host, out.lookup host = ((entriesFor fw part host).map fun entry => (part entry).2).foldl
        (fun existing rules => some (mergeHost existing rules))
        (startOf fw (t.targets fw) host) := by
  obtain ⟨parts, mapped, accepted⟩ := bind_ok_iff.mp accepted
  obtain ⟨part, each, rfl⟩ := mapM_ok_iff.mp mapped
  obtain ⟨rfl, -⟩ := Prod.mk.inj (Except.ok.inj accepted)
  refine ⟨part, each, fun host => ?_⟩
  rw [OrdMap.lookup_gather, List.flatMap_map, entriesFor, ← valuesAt_flatMap]
  unfold startOf
  cases hasTargetExclusions fw with
  | false => rfl
  | true => simp only [if_true, enrolled_lookup, true_and]

theorem isExclusion_wildcard : isExclusion wildcard = false := by decide

theorem hasTargetExclusions_iff : hasTargetExclusions fw = true ↔
    ∃ subject rules, fw.lookup subject = some rules ∧ isExclusion subject = true := by
  simp only [hasTargetExclusions, List.any_eq_true, Prod.exists, OrdMap.mem_iter]

namespace DeployTables

variable {t : DeployTables} {fw : DeployNetwork}

/-- The rules of an accepted entry are for the hosts its subject denotes. -/
theorem mem_subjects (held : fw.lookup subject = some rules)
    (accepted : t.expandEntry (t.ranged fw) (subject, rules) = .ok part) :
    host ∈ part.1 ↔ t.SubjectDenotes fw subject host := by
  refine mem_subjectHosts (expandEntry_ok accepted).1 fun excludes => ?_
  exact if_pos (hasTargetExclusions_iff.mpr ⟨subject, rules, held, excludes⟩)

theorem mem_entriesFor
    (each : ∀ entry ∈ OrdMap.iter (· ≤ ·) fw, t.expandEntry (t.ranged fw) entry = .ok (part entry))
    :
    (subject, rules) ∈ entriesFor fw part host ↔
      fw.lookup subject = some rules ∧ t.SubjectDenotes fw subject host := by
  rw [entriesFor, List.mem_flatMap]
  constructor
  · rintro ⟨entry, listed, member⟩
    obtain ⟨counted, rfl⟩ := List.mem_replicate.mp member
    have held := (OrdMap.mem_iter _).mp listed
    rw [ne_eq, List.count_eq_zero, not_not] at counted
    exact ⟨held, (mem_subjects held (each _ listed)).mp counted⟩
  · rintro ⟨held, denoted⟩
    have listed := (OrdMap.mem_iter (· ≤ ·)).mpr held
    refine ⟨_, listed, List.mem_replicate.mpr ⟨?_, rfl⟩⟩
    rw [ne_eq, List.count_eq_zero, not_not]
    exact (mem_subjects held (each _ listed)).mpr denoted

/-- The hosts that an expansion has an entry for. -/
def Enrolled (t : DeployTables) (fw : DeployNetwork) (host : Name) : Prop :=
  (hasTargetExclusions fw = true ∧ (host = wildcard ∨ t.Targeted fw host)) ∨
    ∃ subject rules, fw.lookup subject = some rules ∧ t.SubjectDenotes fw subject host

end DeployTables

section Accepted

variable {fw : DeployNetwork} {t : DeployTables} {out : DeployNetwork} {warnings : List Name}

variable (accepted : expandFirewall fw t = .ok (out, warnings))

include accepted

/-- What a host has for a peer is merged from exactly what the rules of the spec give it. -/
theorem gathered_value (field : HostField ν) (host peer : Name) :
    Gathered field.Merges (field.Contributes t fw host peer) (field.value out host peer) := by
  obtain ⟨part, each, merged⟩ := expandFirewall_ok accepted
  have start : (field.entries ((startOf fw (t.targets fw) host).getD ⟨∅, ∅, ∅⟩)).lookup peer =
      none := by
    have : (startOf fw (t.targets fw) host).getD ⟨∅, ∅, ∅⟩ = ⟨∅, ∅, ∅⟩ := by
      unfold startOf
      split
      · rfl
      · rfl
    rw [this, field.entries_empty, Finmap.lookup_empty]
  rw [field.value_eq, merged, field.lookup_mergeHosts, start, List.filterMap_map]
  have gathered : ∀ entry ∈ entriesFor fw part host, Gathered field.Merges
      (fun v => ∃ name, (field.entries entry.2).lookup name = some v ∧ field.Expands t name peer)
      ((field.entries (part entry).2).lookup peer) := by
    intro entry member
    have listed := (OrdMap.mem_iter (· ≤ ·)).mpr ((DeployTables.mem_entriesFor each).mp member).1
    obtain ⟨pairs, filled, pair⟩ := field.expanded (each entry listed)
    rw [filled]
    exact (field.merging.gathered_gather pairs peer).congr fun v => pair peer v
  refine (field.merging.gathered_filterMap gathered).congr fun v => ?_
  simp only [Prod.exists, DeployTables.mem_entriesFor each, HostField.Contributes, and_assoc,
    exists_and_left]

/-- The hosts of an expansion. -/
theorem expanded_isSome_iff (host : Name) : (out.lookup host).isSome ↔ t.Enrolled fw host := by
  obtain ⟨part, each, merged⟩ := expandFirewall_ok accepted
  have filled : ∀ (rules : List DeployHost) (start : Option DeployHost),
      (rules.foldl (fun existing rules => some (mergeHost existing rules)) start).isSome ↔
        start.isSome ∨ rules ≠ [] := by
    intro rules
    induction rules with
    | nil => simp only [List.foldl_nil, ne_eq, not_true_eq_false, or_false, implies_true]
    | cons first rules ih =>
      intro start
      rw [List.foldl_cons, ih]
      exact iff_of_true (.inl rfl) (.inr (List.cons_ne_nil first rules))
  rw [merged, filled]
  refine or_congr ?_ ?_
  · unfold startOf
    rw [← t.mem_targets]
    split
    · next holds => exact iff_of_true rfl holds
    · next fails => exact iff_of_false (Bool.false_ne_true) fails
  · rw [ne_eq, List.map_eq_nil_iff, List.eq_nil_iff_forall_not_mem]
    simp only [not_forall, not_not, Prod.exists, DeployTables.mem_entriesFor each]

/-- The tokens of a specification are those of the rules it comes from. -/
theorem mem_tokens_iff (action : Action) (host peer tok : Name) :
    (∃ spec ∈ (specField action).value out host peer, tok ∈ specTokens spec) ↔
      ∃ spec, (specField action).Contributes t fw host peer spec ∧ tok ∈ specTokens spec := by
  have gathered := gathered_value accepted (specField action) host peer
  have merges : (specField action).Merges = fun specs spec => mergeSpecs specs = some spec := by
    cases action with
    | allow | deny => rfl
  rw [merges] at gathered
  generalize (specField action).value out host peer = found at gathered ⊢
  cases found with
  | none =>
    exact iff_of_false (fun ⟨_, absent, _⟩ => nomatch absent)
      fun ⟨spec, contributes, _⟩ => gathered spec contributes
  | some spec =>
    obtain ⟨specs, merged, same⟩ := gathered
    simp only [← same, ← mem_specTokens_mergeSpecs, merged]

end Accepted

/-! ## Tables that denote the same -/

section Same

variable {fw : DeployNetwork} {t t' : DeployTables} (same : SameDenotation t t')

include same

theorem SameDenotation.enrolled (fw : DeployNetwork) (host : Name) :
    t.Enrolled fw host ↔ t'.Enrolled fw host := by
  simp only [DeployTables.Enrolled, same.targeted, same.subject]

theorem SameDenotation.contributes (field : HostField ν) (fw : DeployNetwork)
    (host peer : Name) (v : ν) :
    field.Contributes t fw host peer v ↔ field.Contributes t' fw host peer v := by
  simp only [HostField.Contributes, same.subject, field.expands_congr same]

theorem SameDenotation.targets (fw : DeployNetwork) : t.targets fw = t'.targets fw := by
  ext host
  rw [t.mem_targets, t'.mem_targets, same.targeted]

variable {out out' : DeployNetwork} {warnings warnings' : List Name}

omit same in
theorem eq_of_related (related : Option.Rel (specField action).Same found found') :
    found = found' := by
  cases action with
  | allow | deny =>
    cases related with
    | none => rfl
    | some equal => exact congrArg some equal

/-- Both results have the same for a host and a peer. -/
theorem SameDenotation.value (accepted : expandFirewall fw t = .ok (out, warnings))
    (accepted' : expandFirewall fw t' = .ok (out', warnings')) (field : HostField ν)
    (host peer : Name) :
    Option.Rel field.Same (field.value out host peer) (field.value out' host peer) := by
  have gathered := gathered_value accepted field host peer
  have gathered' := (gathered_value accepted' field host peer).congr fun v =>
    (same.contributes field fw host peer v).symm
  exact field.merging.gathered_related gathered gathered' field.merged_same

end Same

namespace DeployTables

/-- No alias resolves to a hostname twice. -/
def Distinct (t : DeployTables) : Prop :=
  ∀ name identity, t.aliases.lookup name = some identity → (t.resolveAlias identity).Nodup

theorem Distinct.memberHosts_nodup (distinct : t.Distinct) (name : Name) :
    (t.memberHosts name).Nodup := by
  unfold memberHosts
  split
  · exact List.nodup_singleton name
  · cases held : t.aliases.lookup name with
    | some identity => exact distinct name identity held
    | none => exact List.nodup_singleton name

theorem Distinct.resolveName_nodup (distinct : t.Distinct) (name : Name) :
    (t.resolveName name).Nodup := by
  unfold resolveName
  split
  · exact List.nodup_singleton name
  · cases t.groups.lookup name with
    | some members => exact sorted_nodup _ _
    | none => exact distinct.memberHosts_nodup name

theorem Distinct.subjectHosts_nodup (distinct : t.Distinct) {targets : Finset Name}
    {hosts : List Name} (accepted : t.subjectHosts targets subject = .ok hosts) : hosts.Nodup := by
  unfold subjectHosts at accepted
  split at accepted
  · obtain ⟨found, parsed, accepted⟩ := bind_ok_iff.mp accepted
    cases found with
    | none => cases accepted
    | some terms =>
      obtain rfl := Except.ok.inj accepted
      exact (sorted_nodup _ _).filter _
  · obtain rfl := Except.ok.inj accepted
    exact distinct.resolveName_nodup subject

end DeployTables

section Distinct

variable {t t' : DeployTables} (same : SameDenotation t t') (distinct : t.Distinct)
  (distinct' : t'.Distinct)

include same distinct distinct'

theorem resolveName_perm (name : Name) : (t.resolveName name).Perm (t'.resolveName name) := by
  rw [List.perm_ext_iff_of_nodup (distinct.resolveName_nodup name)
    (distinct'.resolveName_nodup name)]
  intro host
  rw [t.mem_resolveName, t'.mem_resolveName, same.name]

theorem expandSsh_eq (ssh : OrdMap Name (List Name)) : t.expandSsh ssh = t'.expandSsh ssh := by
  refine Finmap.ext_lookup fun peer => ?_
  unfold DeployTables.expandSsh
  rw [OrdMap.lookup_gather, OrdMap.lookup_gather, valuesAt_flatMap, valuesAt_flatMap]
  simp only [(resolveName_perm same distinct distinct' _).count_eq]

/-- An entry expands to the same rules for the same hosts. -/
theorem expandEntry_same (held : fw.lookup subject = some rules)
    (accepted : t.expandEntry (t.ranged fw) (subject, rules) = .ok part)
    (accepted' : t'.expandEntry (t'.ranged fw) (subject, rules) = .ok part') :
    part.1.Perm part'.1 ∧ part.2 = part'.2 := by
  have subjects := (DeployTables.expandEntry_ok accepted).1
  have subjects' := (DeployTables.expandEntry_ok accepted').1
  constructor
  · rw [List.perm_ext_iff_of_nodup (distinct.subjectHosts_nodup subjects)
      (distinct'.subjectHosts_nodup subjects')]
    intro host
    rw [DeployTables.mem_subjects held accepted, DeployTables.mem_subjects held accepted',
      same.subject]
  · have specs : ∀ action, (specField action).entries part.2 =
        (specField action).entries part'.2 := by
      intro action
      refine Finmap.ext_lookup fun peer => ?_
      obtain ⟨pairs, filled, pair⟩ := (specField action).expanded accepted
      obtain ⟨pairs', filled', pair'⟩ := (specField action).expanded accepted'
      have gathered := (specField action).merging.gathered_gather pairs peer
      have gathered' := (specField action).merging.gathered_gather pairs' peer
      have listed : ∀ spec, (peer, spec) ∈ pairs' ↔ (peer, spec) ∈ pairs := by
        intro spec
        simp only [pair, pair', (specField action).expands_congr same]
      rw [filled, filled']
      exact eq_of_related ((specField action).merging.gathered_related gathered
        (gathered'.congr listed) (specField action).merged_same)
    have ssh : part.2.ssh = part'.2.ssh := by
      rw [(DeployTables.expandEntry_ok accepted).2.2.2,
        (DeployTables.expandEntry_ok accepted').2.2.2]
      exact expandSsh_eq same distinct distinct' _
    exact DeployHost.ext (specs .allow) (specs .deny) ssh

/-- The results are the same when no alias resolves to a hostname twice. -/
theorem expandFirewall_same (accepted : expandFirewall fw t = .ok (out, warnings))
    (accepted' : expandFirewall fw t' = .ok (out', warnings')) : out = out' := by
  obtain ⟨part, each, merged⟩ := expandFirewall_ok accepted
  obtain ⟨part', each', merged'⟩ := expandFirewall_ok accepted'
  have parts : ∀ entry ∈ OrdMap.iter (· ≤ ·) fw,
      (part entry).1.Perm (part' entry).1 ∧ (part entry).2 = (part' entry).2 := fun entry listed =>
    expandEntry_same same distinct distinct' ((OrdMap.mem_iter _).mp listed) (each entry listed)
      (each' entry listed)
  refine Finmap.ext_lookup fun host => ?_
  have entries : entriesFor fw part host = entriesFor fw part' host := by
    refine List.flatMap_congr fun entry listed => ?_
    rw [(parts entry listed).1.count_eq]
  have rules : (entriesFor fw part host).map (fun entry => (part entry).2) =
      (entriesFor fw part' host).map fun entry => (part' entry).2 := by
    rw [← entries]
    refine List.map_congr_left fun entry member => (parts entry ?_).2
    obtain ⟨held, -⟩ := (DeployTables.mem_entriesFor each).mp member
    exact (OrdMap.mem_iter _).mpr held
  rw [merged, merged', rules, same.targets]

end Distinct

end Rayfish
