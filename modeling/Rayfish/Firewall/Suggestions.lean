import Rayfish.Firewall.Rules
import Rayfish.Hostname
import Rayfish.Lib.Text

/-!
# Suggested firewall rules

What a coordinator suggests for the hosts of its network, as the rules a host makes of
it (`firewall.rs`, `reconverge.rs`). Each subject's allows come before its denies, and
the subject `*` before the host's own, so a suggested deny is shadowed by an allow that
is materialized earlier. `suggested_deny_iff` says exactly when a packet that a deny
entry names is denied, and `suggested_deny_ineffective` has two packets that are not.
-/

namespace Rayfish

open Lib

/-! ## Selectors and specifications -/

/-- The terms of `*-a,b`; another selector has none. -/
def parseExcludedPeerTerms (selector : Name) : Except Name (Option (List Name)) :=
  match afterStart "*-".toList selector with
  | none => .ok none
  | some terms =>
    let exclusions := terms.splitOn ','
    if exclusions.all fun term => !term.isEmpty then .ok (some exclusions)
    else .error ("invalid excluded-peer selector '".toList ++ selector ++ "'".toList)

def parseExcludedPeers (selector : Name) : Except Name (Option (List Name)) := do
  match ← parseExcludedPeerTerms selector with
  | none => return none
  | some terms =>
    let hosts ← terms.mapM fun host =>
      if isValidHostname host then Except.ok host
      else .error ("invalid excluded peer '".toList ++ host ++ "' in '".toList ++ selector ++
        "'".toList)
    -- sorted and without duplicates
    return some (sorted (· ≤ ·) hosts.toFinset)

def parsePort (s : Name) (context : Name) : Except Name UInt16 :=
  match parseUnsigned (2 ^ 16) s with
  | some port => .ok (UInt16.ofNat port)
  | none => .error context

def parsePortRange (s : Name) : Except Name PortRange :=
  if trim s = "*".toList then .ok ⟨0, 0xffff⟩
  else
    match splitOnce '-' s with
    | some (start, stop) => do
      let start ← parsePort start "invalid start port".toList
      let stop ← parsePort stop "invalid end port".toList
      if start > stop then
        .error ("start port (".toList ++ Nat.toDigits 10 start.toNat ++
          ") must be <= end port (".toList ++ Nat.toDigits 10 stop.toNat ++ ")".toList)
      else return ⟨start, stop⟩
    | none => do
      let port ← parsePort s "invalid port number".toList
      return ⟨port, port⟩

def parseProtocol (s : Name) : Except Name Protocol :=
  if s = "tcp".toList then .ok .tcp
  else if s = "udp".toList then .ok .udp
  else if s = "icmp".toList then .ok .icmp
  else if s = "any".toList then .ok .any
  else
    .error ("invalid protocol '".toList ++ s ++
      "' (expected 'tcp', 'udp', 'icmp', or 'any')".toList)

/-- One token of a specification: `tcp:22`, `udp:*`, `icmp`. -/
def parseSpecToken (tok : Name) : Except Name (Protocol × Option PortRange) :=
  let tok := trim tok
  match splitOnce ':' tok with
  | some (proto, port) => do
    match ← parseProtocol proto with
    | .icmp => return (.icmp, none)
    | .any => return (.any, none)
    | proto =>
      let range ← parsePortRange port
      return (proto, some range)
  | none =>
    if (parseUnsigned (2 ^ 16) tok).isSome then
      .error ("missing protocol prefix for '".toList ++ tok ++ "'; use e.g. 'tcp:".toList ++ tok ++
        "' or 'icmp'".toList)
    else do
      match ← parseProtocol tok with
      | .icmp => return (.icmp, none)
      | .any => return (.any, none)
      | proto => return (proto, some ⟨0, 0xffff⟩)

/-- The tokens of a comma-separated specification. -/
def specTokens (ports : Name) : List Name :=
  ((ports.splitOn ',').map trim).filter fun tok => !tok.isEmpty

/-! ## Materialization -/

def HostSuggestions.entries (host : HostSuggestions) : Action → OrdMap Name Name
  | .allow => host.allows
  | .deny => host.denies

/-- Whom a peer selector stands for. `none` skips the entry. -/
def peerFilter (resolve resolveExcluded : Name → Option EndpointId) (action : Action)
    (peer : Name) : Option PeerFilter :=
  match parseExcludedPeers peer with
  | .ok (some hostnames) =>
    if action = .allow then
      some (.except (hostnames.map String.ofList) (hostnames.filterMap resolveExcluded))
    else none
  | .error _ => none
  | .ok none => if peer = "*".toList then some .any else (resolve peer).map .identity

/-- One rule for each valid token of an entry. -/
def entryRules (net : Name) (action : Action) (filter : PeerFilter) (ports : Name) :
    List FirewallRule :=
  (specTokens ports).filterMap fun tok =>
    match parseSpecToken tok with
    | .ok (proto, port) =>
      some {
        direction := .incoming
        action := action
        protocol := proto
        port := port
        peer := filter
        network := some (String.ofList net)
        origin := .network (String.ofList net) }
    | .error _ => none

/-- The rules of one list of a subject, in the order of the peers' names. -/
def listRules (net : Name) (resolve resolveExcluded : Name → Option EndpointId) (action : Action)
    (list : OrdMap Name Name) : List FirewallRule :=
  (OrdMap.iter (· ≤ ·) list).flatMap fun (peer, ports) =>
    match peerFilter resolve resolveExcluded action peer with
    | some filter => entryRules net action filter ports
    | none => []

/-- The subjects that apply to a host: `*`, and its own name. -/
def subjects (myHostname : Name) : List Name :=
  if myHostname ≠ "*".toList then ["*".toList, myHostname] else ["*".toList]

def materializeSuggestionsWithExclusionResolver (net myHostname : Name)
    (suggestions : SuggestedFirewall) (resolve resolveExcluded : Name → Option EndpointId) :
    List FirewallRule :=
  ((subjects myHostname).filterMap suggestions.lookup).flatMap fun host =>
    [Action.allow, .deny].flatMap fun action =>
      listRules net resolve resolveExcluded action (host.entries action)

/-- The rows whose hostname is `h`, the one that a later row replaces left out. -/
def MemberList.named (members : MemberList) (h : Name) : Option Member :=
  ((members.iter (· ≤ ·)).filter fun m => m.hostname = some h).getLast?

/-- A peer named by a selector is its transport identity. -/
def MemberList.resolveHost (members : MemberList) (h : Name) : Option EndpointId :=
  (members.named h).map fun m => m.identity

/-- An excluded peer is its user's identity. -/
def MemberList.resolveExcluded (members : MemberList) (h : Name) : Option EndpointId :=
  (members.named h).map fun m => m.userIdentity.getD m.identity

/-- The rules that `apply_suggested_firewall` makes of a roster's suggestions. -/
def materialize (net myHostname : Name) (suggestions : SuggestedFirewall) (members : MemberList) :
    List FirewallRule :=
  materializeSuggestionsWithExclusionResolver net myHostname suggestions members.resolveHost
    members.resolveExcluded

/-- Rules and default, without connection tracking. -/
def evaluate (config : FirewallConfig) (direction : Direction) (protocol : UInt8)
    (dstPort : UInt16) (peer : EndpointId) (sharesNetwork : String → Bool) : Action :=
  ((matchRule config direction protocol dstPort peer sharesNetwork).map fun rule =>
    rule.action).getD (defaultFor config direction)

/-! ## What a rule list decides -/

/-- A specification has a token for the packet. -/
def SpecNames (ports : Name) (protocol : UInt8) (dstPort : UInt16) : Prop :=
  ∃ tok ∈ specTokens ports, ∃ proto range, parseSpecToken tok = .ok (proto, range) ∧
    protocolMatches proto protocol = true ∧ range.all (·.contains dstPort) = true

/-- An entry of the list stands for the peer that the filter sees and names the packet. -/
def EntryCovers (resolve resolveExcluded : Name → Option EndpointId) (action : Action)
    (list : OrdMap Name Name) (seen : EndpointId) (protocol : UInt8) (dstPort : UInt16) : Prop :=
  ∃ peer ports filter, list.lookup peer = some ports ∧
    peerFilter resolve resolveExcluded action peer = some filter ∧ filter.admits seen = true ∧
    SpecNames ports protocol dstPort

section Verdict

variable {net myHostname subject : Name} {suggestions : SuggestedFirewall}
  {resolve resolveExcluded : Name → Option EndpointId} {action : Action} {seen : EndpointId}
  {protocol : UInt8} {dstPort : UInt16} {shares : String → Bool} {rules rest : List FirewallRule}
  {otherwise : Action} {rule : FirewallRule}

theorem mem_entryRules :
    rule ∈ entryRules net action filter ports ↔
      ∃ tok ∈ specTokens ports, ∃ proto range, parseSpecToken tok = .ok (proto, range) ∧
        rule = ⟨.incoming, action, proto, range, filter, some (String.ofList net),
          .network (String.ofList net)⟩ := by
  simp only [entryRules, List.mem_filterMap]
  refine exists_congr fun tok => and_congr_right fun _ => ?_
  cases parseSpecToken tok with
  | error _ => simp
  | ok parsed =>
    obtain ⟨proto, range⟩ := parsed
    simp [eq_comm]

variable {list : OrdMap Name Name}

theorem mem_listRules :
    rule ∈ listRules net resolve resolveExcluded action list ↔
      ∃ peer ports filter, list.lookup peer = some ports ∧
        peerFilter resolve resolveExcluded action peer = some filter ∧
        rule ∈ entryRules net action filter ports := by
  simp only [listRules, List.mem_flatMap, Prod.exists, OrdMap.mem_iter]
  refine exists_congr fun peer => exists_congr fun ports => ?_
  cases peerFilter resolve resolveExcluded action peer with
  | none | some filter => simp

theorem shape_of_mem_listRules (mem : rule ∈ listRules net resolve resolveExcluded action list) :
    rule.action = action ∧ rule.origin = .network (String.ofList net) := by
  obtain ⟨_, _, _, -, -, mem⟩ := mem_listRules.1 mem
  obtain ⟨_, -, _, _, -, rfl⟩ := mem_entryRules.1 mem
  exact ⟨rfl, rfl⟩

/-- A list has a rule for the packet exactly when an entry covers it. -/
theorem listRules_matches (shared : shares (String.ofList net) = true) :
    (∃ rule ∈ listRules net resolve resolveExcluded action list,
      rule.matches .incoming protocol dstPort seen shares = true) ↔
      EntryCovers resolve resolveExcluded action list seen protocol dstPort := by
  constructor
  · rintro ⟨rule, mem, hit⟩
    obtain ⟨peer, ports, filter, held, filtered, mem⟩ := mem_listRules.1 mem
    obtain ⟨tok, token, proto, range, parsed, rfl⟩ := mem_entryRules.1 mem
    simp only [FirewallRule.matches, Bool.and_eq_true] at hit
    obtain ⟨⟨⟨⟨-, named⟩, inside⟩, admitted⟩, -⟩ := hit
    exact ⟨peer, ports, filter, held, filtered, admitted, tok, token, proto, range, parsed, named,
      inside⟩
  · rintro ⟨peer, ports, filter, held, filtered, admitted, tok, token, proto, range, parsed, named,
      inside⟩
    refine ⟨_, mem_listRules.2 ⟨peer, ports, filter, held, filtered,
      mem_entryRules.2 ⟨tok, token, proto, range, parsed, rfl⟩⟩, ?_⟩
    simp [FirewallRule.matches, named, inside, admitted, shared]

/-- The action of the first rule for the packet, or the default. -/
def verdict (rules : List FirewallRule) (otherwise : Action) (protocol : UInt8) (dstPort : UInt16)
    (seen : EndpointId) (shares : String → Bool) : Action :=
  ((rules.find? (·.matches .incoming protocol dstPort seen shares)).map fun rule =>
    rule.action).getD otherwise

/-- Rules of one action decide every packet that one of them is for. -/
theorem verdict_append_hit (uniform : ∀ rule ∈ rules, rule.action = action)
    (hit : ∃ rule ∈ rules, rule.matches .incoming protocol dstPort seen shares = true) :
    verdict (rules ++ rest) otherwise protocol dstPort seen shares = action := by
  rw [verdict, List.find?_append]
  cases found : rules.find? (·.matches .incoming protocol dstPort seen shares) with
  | none =>
    obtain ⟨rule, mem, hit⟩ := hit
    exact absurd hit (List.find?_eq_none.1 found rule mem)
  | some rule => exact uniform rule (List.mem_of_find?_eq_some found)

theorem verdict_append_miss
    (miss : ¬ ∃ rule ∈ rules, rule.matches .incoming protocol dstPort seen shares = true) :
    verdict (rules ++ rest) otherwise protocol dstPort seen shares =
      verdict rest otherwise protocol dstPort seen shares := by
  have none : rules.find? (·.matches .incoming protocol dstPort seen shares) = none :=
    List.find?_eq_none.2 fun rule mem hit => miss ⟨rule, mem, hit⟩
  rw [verdict, List.find?_append, none]
  rfl

theorem verdict_listRules (shared : shares (String.ofList net) = true) :
    verdict (listRules net resolve resolveExcluded action list ++ rest) otherwise protocol dstPort
        seen shares = .deny ↔
      EntryCovers resolve resolveExcluded action list seen protocol dstPort ∧ action = .deny ∨
        ¬ EntryCovers resolve resolveExcluded action list seen protocol dstPort ∧
          verdict rest otherwise protocol dstPort seen shares = .deny := by
  rw [← listRules_matches shared]
  by_cases hit : ∃ rule ∈ listRules net resolve resolveExcluded action list,
      rule.matches .incoming protocol dstPort seen shares = true
  · rw [verdict_append_hit (fun _ mem => (shape_of_mem_listRules mem).1) hit]
    simp only [hit, true_and, not_true, false_and, or_false]
  · rw [verdict_append_miss hit]
    simp only [hit, false_and, not_false_eq_true, true_and, false_or]

/-- The subject has an entry of this action for the packet. -/
def Covers (suggestions : SuggestedFirewall) (resolve resolveExcluded : Name → Option EndpointId)
    (action : Action) (subject : Name) (seen : EndpointId) (protocol : UInt8) (dstPort : UInt16) :
    Prop :=
  ∃ host, suggestions.lookup subject = some host ∧
    EntryCovers resolve resolveExcluded action (host.entries action) seen protocol dstPort

/-- The rules of one subject. -/
def subjectRules (net : Name) (suggestions : SuggestedFirewall)
    (resolve resolveExcluded : Name → Option EndpointId) (subject : Name) : List FirewallRule :=
  match suggestions.lookup subject with
  | some host =>
    listRules net resolve resolveExcluded .allow host.allows ++
      listRules net resolve resolveExcluded .deny host.denies
  | none => []

theorem materialize_eq_subjectRules :
    materializeSuggestionsWithExclusionResolver net myHostname suggestions resolve
      resolveExcluded =
        (subjects myHostname).flatMap
          (subjectRules net suggestions resolve resolveExcluded) := by
  rw [materializeSuggestionsWithExclusionResolver]
  induction subjects myHostname with
  | nil => rfl
  | cons subject rest ih =>
    rw [List.flatMap_cons, ← ih]
    cases held : suggestions.lookup subject with
    | none => simp [subjectRules, held]
    | some host => simp [subjectRules, held, HostSuggestions.entries]

/-- The rules of a subject deny what a deny of it covers and no allow of it does. -/
theorem verdict_subjectRules (shared : shares (String.ofList net) = true) :
    verdict (subjectRules net suggestions resolve resolveExcluded subject ++ rest) otherwise
        protocol dstPort seen shares = .deny ↔
      ¬ Covers suggestions resolve resolveExcluded .allow subject seen protocol dstPort ∧
        (Covers suggestions resolve resolveExcluded .deny subject seen protocol dstPort ∨
          verdict rest otherwise protocol dstPort seen shares = .deny) := by
  cases held : suggestions.lookup subject with
  | none => simp [subjectRules, Covers, held]
  | some host =>
    simp only [subjectRules, Covers, held, Option.some.injEq, exists_eq_left', List.append_assoc,
      HostSuggestions.entries, verdict_listRules shared, reduceCtorEq, and_true, and_false,
      false_or, or_and_left, or_not, true_and]

end Verdict

/-! ## Suggested denies -/

/-- A deny entry that applies to the host and names the peer, by `*` or by its hostname, is
about the packet. -/
def DenyApplies (suggestions : SuggestedFirewall) (myHostname : Name) (p : Member)
    (protocol : UInt8) (dstPort : UInt16) : Prop :=
  ∃ subject ∈ subjects myHostname, ∃ host, suggestions.lookup subject = some host ∧
    ∃ peer ports, host.denies.lookup peer = some ports ∧
      (peer = "*".toList ∨ p.hostname = some peer) ∧ SpecNames ports protocol dstPort

/-- `Covers` with the hostnames resolved in the roster. -/
def MemberList.Covers (members : MemberList) (suggestions : SuggestedFirewall) (action : Action)
    (subject : Name) (seen : EndpointId) (protocol : UInt8) (dstPort : UInt16) : Prop :=
  Rayfish.Covers suggestions members.resolveHost members.resolveExcluded action subject seen
    protocol dstPort

/-- A packet from a peer `p` of the network, which the filter sees as `seen`, is denied
whenever a deny entry applies to it, exactly if then no allow of the subject `*` covers it,
and a deny of `*` does, or no allow of the host's own subject covers it, and a deny of its
own subject does or its default is to deny. -/
theorem suggested_deny_iff (net myHostname : Name) (suggestions : SuggestedFirewall)
    (members : MemberList) (config : FirewallConfig) (p : Member) (seen : EndpointId)
    (protocol : UInt8) (dstPort : UInt16) (shares : String → Bool)
    (only : config.rules = materialize net myHostname suggestions members)
    (shared : shares (String.ofList net) = true) :
    (DenyApplies suggestions myHostname p protocol dstPort →
      evaluate config .incoming protocol dstPort seen shares = .deny) ↔
    (DenyApplies suggestions myHostname p protocol dstPort →
      ¬ members.Covers suggestions .allow "*".toList seen protocol dstPort ∧
        (members.Covers suggestions .deny "*".toList seen protocol dstPort ∨
          ¬ members.Covers suggestions .allow myHostname seen protocol dstPort ∧
            (members.Covers suggestions .deny myHostname seen protocol dstPort ∨
              config.defaultInbound = .deny))) := by
  have evaluated : evaluate config .incoming protocol dstPort seen shares =
      verdict ((subjects myHostname).flatMap (subjectRules net suggestions members.resolveHost
        members.resolveExcluded) ++ []) config.defaultInbound protocol dstPort seen shares := by
    rw [List.append_nil, ← materialize_eq_subjectRules, evaluate, matchRule, only]
    rfl
  rw [evaluated]
  by_cases star : myHostname = "*".toList
  · simp only [subjects, star, ne_eq, not_true_eq_false, if_false, List.flatMap_singleton,
      verdict_subjectRules shared]
    tauto
  · rw [subjects, if_pos star, List.flatMap_cons, List.flatMap_singleton, List.append_assoc,
      verdict_subjectRules shared, verdict_subjectRules shared]
    rfl

/-! ## Ineffective denies -/

/-- Host `me` denies port 22 to `eve`, and has the allows given. -/
def denyEve (allows : OrdMap Name Name) : SuggestedFirewall :=
  Finmap.singleton "me".toList ⟨allows, Finmap.singleton "eve".toList "tcp:22".toList⟩

/-- Eve's device 2, paired with a user or not. -/
def eveRow (user : Option EndpointId) : Member where
  identity := 2
  isCoordinator := false
  hostname := some "eve".toList
  userIdentity := user
  deviceCert := none
  lastSeen := none
  exitNode := false
  exitFamilies := .unknown

/-- The rules of host `me` for a network with eve's device, and nothing else. -/
def eveConfig (otherwise : Action) (allows : OrdMap Name Name) (user : Option EndpointId) :
    FirewallConfig where
  defaultInbound := otherwise
  defaultOutbound := .allow
  reject := false
  disabled := false
  rules := materialize "net".toList "me".toList (denyEve allows)
    (KeyedMap.empty.insert (eveRow user))

theorem denyEve_applies (allows : OrdMap Name Name) (user : Option EndpointId) :
    DenyApplies (denyEve allows) "me".toList (eveRow user) 6 22 := by
  refine ⟨"me".toList, by decide +kernel, _, Finmap.lookup_singleton_eq, "eve".toList,
    "tcp:22".toList, Finmap.lookup_singleton_eq, .inr rfl, "tcp:22".toList, by decide +kernel, .tcp,
    some ⟨22, 22⟩, ?_⟩
  decide +kernel

/-- A deny alone is effective. -/
theorem suggested_deny_alone :
    DenyApplies (denyEve ∅) "me".toList (eveRow none) 6 22 ∧
      evaluate (eveConfig .allow ∅ none) .incoming 6 22 2 (fun _ => true) = .deny := by
  have applies := denyEve_applies ∅ none
  refine ⟨applies, (suggested_deny_iff "net".toList "me".toList (denyEve ∅)
    (KeyedMap.empty.insert (eveRow none)) (eveConfig .allow ∅ none) (eveRow none) 2 6 22
    (fun _ => true) rfl rfl).2 (fun _ => ⟨?_, .inr ⟨?_, .inl ?_⟩⟩) applies⟩
  · rintro ⟨host, held, -⟩
    have unlisted : (denyEve ∅).lookup "*".toList = none := by decide +kernel
    cases unlisted.symm.trans held
  · rintro ⟨host, held, peer, ports, filter, entry, -⟩
    cases held
    exact absurd entry (by simp [HostSuggestions.entries])
  · refine ⟨_, Finmap.lookup_singleton_eq, "eve".toList, "tcp:22".toList, .identity 2,
      Finmap.lookup_singleton_eq, by decide +kernel, by decide +kernel, "tcp:22".toList,
      by decide +kernel, .tcp, some ⟨22, 22⟩, ?_⟩
    decide +kernel

/-- The entry `*` of the allows opens port 22 to eve in spite of the deny. Where eve's device
is paired with the user 9, the deny names the device and the filter sees the user. -/
theorem suggested_deny_ineffective :
    (DenyApplies (denyEve (Finmap.singleton "*".toList "tcp:22".toList)) "me".toList (eveRow none)
        6 22 ∧
      evaluate (eveConfig .deny (Finmap.singleton "*".toList "tcp:22".toList) none) .incoming 6 22 2
        (fun _ => true) = .allow) ∧
    DenyApplies (denyEve ∅) "me".toList (eveRow (some 9)) 6 22 ∧
      evaluate (eveConfig .allow ∅ (some 9)) .incoming 6 22 9 (fun _ => true) = .allow :=
  ⟨⟨denyEve_applies _ _, by decide +kernel⟩, denyEve_applies _ _, by decide +kernel⟩

end Rayfish
