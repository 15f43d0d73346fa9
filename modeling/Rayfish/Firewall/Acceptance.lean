import Rayfish.Firewall.Suggestions
import Rayfish.Lib.Run

/-!
# Accepting suggestions

A host queues the rules its networks' coordinators suggest and installs them when told to
(`reconverge.rs`, `daemon/mesh/firewall.rs`). The queue leaves out what is installed, and
accepting replaces everything installed from the network by the queue, so a rule that was
accepted before and is still suggested is dropped. `accepted_exactly_iff` says exactly
after which histories an accept installs the suggestions of the moment.
-/

namespace Rayfish

open Lib

/-! ## The rule list -/

def FirewallRule.isFrom (net : Name) (rule : FirewallRule) : Bool :=
  rule.origin = .network (String.ofList net)

namespace FirewallConfig

/-- The rules installed from a network's suggestions. -/
def installed (config : FirewallConfig) (net : Name) : List FirewallRule :=
  config.rules.filter (·.isFrom net)

def replaceNetworkRules (config : FirewallConfig) (net : Name) (newRules : List FirewallRule) :
    FirewallConfig :=
  { config with rules := config.rules.filter (fun rule => !rule.isFrom net) ++ newRules }

end FirewallConfig

/-- The rules match the same traffic. -/
def sameSelector (a b : FirewallRule) : Bool :=
  a.direction = b.direction && a.protocol = b.protocol && a.port = b.port && a.peer = b.peer &&
    a.network = b.network

/-- The last rule of each selector, in order. -/
def dedupBySelector (rules : List FirewallRule) : List FirewallRule :=
  (rules.reverse.foldl (fun deduped rule =>
    if deduped.any (sameSelector · rule) then deduped else deduped ++ [rule]) []).reverse

/-- A rule as the command line shows it. -/
structure FirewallRuleView where
  direction : Direction
  action : Action
  protocol : Protocol
  port : Name
  peer : Name
  network : Name
  suggestedBy : Option Name
  deriving DecidableEq

def ruleView (shortId : EndpointId → Name) (rule : FirewallRule) : FirewallRuleView where
  direction := rule.direction
  action := rule.action
  protocol := rule.protocol
  port :=
    match rule.port with
    | none => "*".toList
    | some range =>
      if range.start = range.stop then Nat.toDigits 10 range.start.toNat
      else Nat.toDigits 10 range.start.toNat ++ '-' :: Nat.toDigits 10 range.stop.toNat
  peer :=
    match rule.peer with
    | .any => "any".toList
    | .identity id => shortId id
    | .except hostnames _ =>
      "any except ".toList ++ [','].intercalate (hostnames.map String.toList)
  network := (rule.network.map String.toList).getD "any".toList
  suggestedBy :=
    match rule.origin with
    | .local => none
    | .network name => some name.toList
    | .ssh => some "ssh".toList

/-! ## A host and its queue -/

/-- What a host knows of one network, with the firewall of all. -/
structure SuggestionState where
  group : GroupBlob
  pendingSuggestions : List FirewallRule
  config : FirewallConfig

inductive IpcReply where
  | ok (message : Name)
  | error (message : Name)

namespace SuggestionState

variable (s : SuggestionState) (net : Name) (me : EndpointId)

def myHostname : Option Name :=
  (s.group.members.get me).bind fun m => m.hostname

/-- The rules that the suggestions of the moment make for this host. -/
def materialized : List FirewallRule :=
  match s.myHostname me with
  | some name => materialize net name s.group.suggestedFirewall s.group.members
  | none => []

def applySuggestedFirewall (autoAccept : Bool) : SuggestionState :=
  match s.myHostname me with
  | none => s
  | some name =>
    let rules := materialize net name s.group.suggestedFirewall s.group.members
    if autoAccept then
      { s with config := s.config.replaceNetworkRules net rules, pendingSuggestions := [] }
    else
      -- an accepted rule is materialized again on every apply
      let installed := s.config.installed net
      { s with pendingSuggestions := rules.filter fun rule => !installed.contains rule }

/-- Install the queued rules whose view is accepted and drop those accepted or denied. -/
def firewallResolveSuggestions (shortId : EndpointId → Name) (accept deny : List FirewallRuleView) :
    IpcReply × SuggestionState :=
  let accepted := s.pendingSuggestions.filter fun rule => accept.contains (ruleView shortId rule)
  let remaining := s.pendingSuggestions.filter fun rule =>
    !accept.contains (ruleView shortId rule) && !deny.contains (ruleView shortId rule)
  let config :=
    if accepted.isEmpty then s.config
    else s.config.replaceNetworkRules net (dedupBySelector (s.config.installed net ++ accepted))
  (.ok ("accepted ".toList ++ Nat.toDigits 10 accepted.length ++ ", denied ".toList ++
      Nat.toDigits 10 deny.length ++ " suggested rules for '".toList ++ net ++ "'".toList),
    { s with pendingSuggestions := remaining, config := config })

def firewallAccept : IpcReply × SuggestionState :=
  if s.pendingSuggestions.isEmpty then
    (.error ("no pending suggested rules for '".toList ++ net ++ "'".toList), s)
  else
    (.ok ("accepted ".toList ++ Nat.toDigits 10 s.pendingSuggestions.length ++
        " suggested rules from '".toList ++ net ++ "'".toList),
      { s with
        pendingSuggestions := []
        config := s.config.replaceNetworkRules net s.pendingSuggestions })

def firewallDeny : IpcReply × SuggestionState :=
  (.ok ("discarded ".toList ++ Nat.toDigits 10 s.pendingSuggestions.length ++
      " pending suggested rules for '".toList ++ net ++ "'".toList),
    { s with pendingSuggestions := [] })

end SuggestionState

/-! ## Runs -/

/-- A roster is adopted before its suggestions are applied, and a coordinator's own edits of
the roster are not applied at all; `configure` stands for every other edit of the rules. -/
inductive SuggestionAct where
  | adopt (group : GroupBlob)
  | apply (autoAccept : Bool)
  | resolve (accept deny : List FirewallRuleView)
  | accept
  | deny
  | configure (config : FirewallConfig)

section

variable (net : Name) (me : EndpointId) (shortId : EndpointId → Name)

def SuggestionAct.run (s : SuggestionState) : SuggestionAct → Option IpcReply × SuggestionState
  | .adopt group => (none, { s with group := group })
  | .apply autoAccept => (none, s.applySuggestedFirewall net me autoAccept)
  | .resolve accepted denied =>
    let (reply, s) := s.firewallResolveSuggestions net shortId accepted denied
    (some reply, s)
  | .accept =>
    let (reply, s) := s.firewallAccept net
    (some reply, s)
  | .deny =>
    let (reply, s) := s.firewallDeny net
    (some reply, s)
  | .configure config => (none, { s with config := config })

def suggestionStep : StepRel SuggestionState SuggestionAct (Option IpcReply) :=
  fun s a out s' => a.run net me shortId s = (out, s')

abbrev SuggestionEntry := Entry SuggestionState SuggestionAct (Option IpcReply)

/-- The action takes the rule out of the queue. -/
def SuggestionAct.Settles (rule : FirewallRule) : SuggestionAct → Prop
  | .resolve accepted denied =>
    ruleView shortId rule ∈ accepted ∨ ruleView shortId rule ∈ denied
  | .accept | .deny => True
  | _ => False

/-- An apply for a host that the roster names: the queue is computed anew. -/
def Applies (e : SuggestionEntry) : Prop :=
  (∃ autoAccept, e.act = .apply autoAccept) ∧ (e.before.myHostname me).isSome

/-- The rules were queued by `queueing`, and by nothing since. -/
structure QueuedBy (queueing : SuggestionEntry) (since : List SuggestionEntry) : Prop where
  queues : queueing.act = .apply false
  named : (queueing.before.myHostname me).isSome
  last : ∀ e ∈ since, ¬ Applies me e

/-- The queueing put the rule into the queue, and it has not been taken out. -/
def Waits (queueing : SuggestionEntry) (since : List SuggestionEntry) (rule : FirewallRule) :
    Prop :=
  rule ∈ queueing.before.materialized net me ∧ rule ∉ queueing.before.config.installed net ∧
    ∀ e ∈ since, ¬ e.act.Settles shortId rule

end

section Queue

variable {net : Name} {me : EndpointId} {shortId : EndpointId → Name} {s s' s₀ : SuggestionState}
  {a : SuggestionAct} {out : Option IpcReply} {h : List SuggestionEntry} {rule : FirewallRule}

theorem isFrom_of_mem_materialized (mem : rule ∈ s.materialized net me) :
    rule.isFrom net = true := by
  unfold SuggestionState.materialized at mem
  split at mem
  · rw [materialize, materialize_eq_subjectRules] at mem
    obtain ⟨subject, -, mem⟩ := List.mem_flatMap.1 mem
    unfold subjectRules at mem
    split at mem
    · rcases List.mem_append.1 mem with mem | mem
      · exact decide_eq_true (shape_of_mem_listRules mem).2
      · exact decide_eq_true (shape_of_mem_listRules mem).2
    · cases mem
  · cases mem

/-- An apply of a named host queues what is materialized and not installed. -/
theorem mem_pending_of_queueing (named : (s.myHostname me).isSome) :
    rule ∈ (s.applySuggestedFirewall net me false).pendingSuggestions ↔
      rule ∈ s.materialized net me ∧ rule ∉ s.config.installed net := by
  obtain ⟨name, named⟩ := Option.isSome_iff_exists.1 named
  simp [SuggestionState.applySuggestedFirewall, SuggestionState.materialized, named]

/-- Between two applies rules only leave the queue. -/
theorem mem_pending_of_step (step : suggestionStep net me shortId s a out s')
    (quiet : ¬ Applies me ⟨s, a, out, s'⟩) :
    rule ∈ s'.pendingSuggestions ↔ rule ∈ s.pendingSuggestions ∧ ¬ a.Settles shortId rule := by
  obtain rfl : (a.run net me shortId s).2 = s' := congrArg Prod.snd step
  cases a with
  | adopt _ | configure _ => simp [SuggestionAct.run, SuggestionAct.Settles]
  | apply autoAccept =>
    have unnamed : s.myHostname me = none := by
      by_contra named
      exact quiet ⟨⟨_, rfl⟩, Option.isSome_iff_ne_none.2 named⟩
    simp [SuggestionAct.run, SuggestionAct.Settles, SuggestionState.applySuggestedFirewall, unnamed]
  | resolve accepted denied =>
    simp [SuggestionAct.run, SuggestionAct.Settles, SuggestionState.firewallResolveSuggestions]
  | accept =>
    simp only [SuggestionAct.run, SuggestionAct.Settles, SuggestionState.firewallAccept]
    split
    · next empty => simp [List.isEmpty_iff.1 empty]
    · simp
  | deny => simp [SuggestionAct.run, SuggestionAct.Settles, SuggestionState.firewallDeny]

/-- A queue that is not empty holds the rules that wait since the last apply. -/
theorem queued_of_run (run : Run (suggestionStep net me shortId) s₀ h s)
    (start : s₀.pendingSuggestions = []) :
    s.pendingSuggestions = [] ∨ ∃ pre queueing since, h = pre ++ queueing :: since ∧
      QueuedBy me queueing since ∧
      ∀ rule, rule ∈ s.pendingSuggestions ↔ Waits net me shortId queueing since rule := by
  induction run with
  | nil => exact .inl start
  | @snoc h s s' a out run step ih =>
    by_cases applies : Applies me ⟨s, a, out, s'⟩
    · obtain ⟨⟨autoAccept, act⟩, named⟩ := applies
      obtain rfl : (a.run net me shortId s).2 = s' := congrArg Prod.snd step
      cases act
      cases autoAccept with
      | true =>
        left
        obtain ⟨name, named⟩ := Option.isSome_iff_exists.1 named
        simp only [SuggestionAct.run, SuggestionState.applySuggestedFirewall]
        rw [show s.myHostname me = some name from named]
        rfl
      | false =>
        refine .inr ⟨h, _, [], rfl, ⟨rfl, named, List.forall_mem_nil _⟩, fun rule => ?_⟩
        exact (mem_pending_of_queueing named).trans
          (and_congr_right fun _ => (and_iff_left (List.forall_mem_nil _)).symm)
    · rcases ih with empty | ⟨pre, queueing, since, rfl, queued, waiting⟩
      · left
        refine List.eq_nil_iff_forall_not_mem.2 fun rule mem => ?_
        have before := ((mem_pending_of_step step applies).1 mem).1
        rw [empty] at before
        cases before
      · refine .inr ⟨pre, queueing, since ++ [⟨s, a, out, s'⟩], by simp,
          ⟨queued.queues, queued.named, ?_⟩, fun rule => ?_⟩
        · exact List.forall_mem_append.2 ⟨queued.last, List.forall_mem_singleton.2 applies⟩
        · rw [mem_pending_of_step step applies, waiting, Waits, Waits, List.forall_mem_append,
            List.forall_mem_singleton, and_assoc, and_assoc]

/-- What an accept installs from the network is the queue. -/
theorem installed_of_accept (origin : ∀ rule ∈ s.pendingSuggestions, rule.isFrom net = true)
    (some_pending : s.pendingSuggestions ≠ []) :
    (s.firewallAccept net).2.config.installed net = s.pendingSuggestions := by
  rw [SuggestionState.firewallAccept, if_neg (by simpa using some_pending)]
  have others :
      (s.config.rules.filter fun rule => !rule.isFrom net).filter (·.isFrom net) = [] := by
    simp
  rw [FirewallConfig.installed, FirewallConfig.replaceNetworkRules, List.filter_append, others,
    List.nil_append, List.filter_eq_self.2 origin]

end Queue

/-- In every history, a successful accept takes rules that one apply queued. What is
installed from the network afterwards is what is materialized, exactly if every rule
materialized now was materialized and not installed when the queue was computed and has not
been taken out since, and no other rule has waited since. -/
theorem accepted_exactly_iff (net : Name) (me : EndpointId) (shortId : EndpointId → Name)
    {s₀ s : SuggestionState} {past : List SuggestionEntry} {accepted : SuggestionEntry}
    {message : Name} (run : Run (suggestionStep net me shortId) s₀ (past ++ [accepted]) s)
    (start : s₀.pendingSuggestions = []) (act : accepted.act = .accept)
    (success : accepted.out = some (.ok message)) :
    ∃ pre queueing since, past = pre ++ queueing :: since ∧ QueuedBy me queueing since ∧
      ((∀ rule, rule ∈ accepted.after.config.installed net ↔
          rule ∈ accepted.after.materialized net me) ↔
        ∀ rule, rule ∈ accepted.before.materialized net me ↔
          Waits net me shortId queueing since rule) := by
  obtain ⟨before, step, -⟩ := run.split rfl
  rw [act, success] at step
  have after_eq : (accepted.before.firewallAccept net).2 = accepted.after := congrArg Prod.snd step
  have some_pending : accepted.before.pendingSuggestions ≠ [] := by
    intro empty
    have replied : some (accepted.before.firewallAccept net).1 = some (IpcReply.ok message) :=
      congrArg Prod.fst step
    rw [SuggestionState.firewallAccept, empty] at replied
    cases replied
  rcases queued_of_run before start with empty | ⟨pre, queueing, since, rfl, queued, waiting⟩
  · exact absurd empty some_pending
  · refine ⟨pre, queueing, since, rfl, queued, ?_⟩
    have origin : ∀ rule ∈ accepted.before.pendingSuggestions, rule.isFrom net = true :=
      fun rule mem => isFrom_of_mem_materialized ((waiting rule).1 mem).1
    have same : accepted.after.materialized net me = accepted.before.materialized net me := by
      rw [← after_eq, SuggestionState.firewallAccept]
      split <;> rfl
    rw [same, ← after_eq, installed_of_accept origin some_pending]
    refine forall_congr' fun rule => ?_
    rw [waiting]
    exact Iff.comm

/-! ## A first and a second accept -/

/-- The network has the host `me`, which is to open the ports given. -/
def openPorts (ports : Name) : GroupBlob where
  members := KeyedMap.empty.insert { eveRow none with identity := 1, hostname := some "me".toList }
  approved := KeyedMap.empty
  suggestedFirewall := Finmap.singleton "me".toList ⟨Finmap.singleton "*".toList ports, ∅⟩
  name := none
  reusableKeys := ∅
  nullifiers := ∅

/-- A host that has queued and installed nothing yet. -/
def freshHost : SuggestionState where
  group := openPorts "tcp:22".toList
  pendingSuggestions := []
  config := ⟨.deny, .allow, false, false, []⟩

def anonymous (_ : EndpointId) : Name := []

section

variable (acts : List SuggestionAct)

/-- A run of the host: what happened, and its last state. -/
def hostRun : List SuggestionEntry × SuggestionState :=
  trace (fun s a => a.run "net".toList 1 anonymous s) freshHost acts

theorem run_hostRun :
    Run (suggestionStep "net".toList 1 anonymous) freshHost (hostRun acts).1 (hostRun acts).2 :=
  run_trace freshHost acts

/-- The accept that follows. -/
def hostAccept : SuggestionEntry :=
  let s := (hostRun acts).2
  ⟨s, .accept, some (s.firewallAccept "net".toList).1, (s.firewallAccept "net".toList).2⟩

end

theorem hostAccept_ok (some_pending : (hostRun acts).2.pendingSuggestions.isEmpty = false) :
    ∃ message, (hostAccept acts).out = some (.ok message) := by
  simp only [hostAccept, SuggestionState.firewallAccept, some_pending]
  exact ⟨_, rfl⟩

/-- The first accept installs what is suggested. -/
theorem accepted_exactly_first :
    ∃ past accepted s, Run (suggestionStep "net".toList 1 anonymous) freshHost
        (past ++ [accepted]) s ∧ accepted.act = .accept ∧
      ∀ rule, rule ∈ accepted.after.config.installed "net".toList ↔
        rule ∈ accepted.after.materialized "net".toList 1 := by
  have run : Run (suggestionStep "net".toList 1 anonymous) freshHost
      ((hostRun [.apply false]).1 ++ [hostAccept [.apply false]]) _ :=
    .snoc (run_hostRun [.apply false]) rfl
  obtain ⟨message, success⟩ : ∃ message, (hostAccept [.apply false]).out = some (.ok message) :=
    hostAccept_ok (by decide +kernel)
  obtain ⟨pre, queueing, since, split, queued, exactly⟩ :=
    accepted_exactly_iff _ _ _ run rfl rfl success
  refine ⟨_, _, _, run, rfl, exactly.2 fun rule => ?_⟩
  have alone :
      ∀ e : SuggestionEntry, [e] = pre ++ queueing :: since → e = queueing ∧ since = [] := by
    intro e split
    cases pre with
    | nil => exact List.cons_eq_cons.1 split |>.imp_right Eq.symm
    | cons _ _ => simp at split
  obtain ⟨rfl, rfl⟩ := alone _ split
  have same : (hostRun [.apply false]).2.materialized "net".toList 1 =
      freshHost.materialized "net".toList 1 := by
    decide +kernel
  exact ⟨fun mem => ⟨same ▸ mem, List.not_mem_nil, List.forall_mem_nil _⟩,
    fun waits => same.symm ▸ waits.1⟩

/-- Port 22 is accepted; then port 80 is suggested too. Accepting it drops port 22. -/
theorem accept_drops_accepted :
    ∃ past accepted s message, Run (suggestionStep "net".toList 1 anonymous) freshHost
        (past ++ [accepted]) s ∧ accepted.act = .accept ∧ accepted.out = some (.ok message) ∧
      ∃ rule ∈ accepted.after.materialized "net".toList 1,
        rule ∈ accepted.before.config.installed "net".toList ∧
        rule ∉ accepted.after.config.installed "net".toList := by
  let acts : List SuggestionAct :=
    [.apply false, .accept, .adopt (openPorts "tcp:22,tcp:80".toList), .apply false]
  have run : Run (suggestionStep "net".toList 1 anonymous) freshHost
      ((hostRun acts).1 ++ [hostAccept acts]) _ :=
    .snoc (run_hostRun acts) rfl
  obtain ⟨message, success⟩ : ∃ message, (hostAccept acts).out = some (.ok message) :=
    hostAccept_ok (by decide +kernel)
  refine ⟨_, _, _, message, run, rfl, success, ?_⟩
  decide +kernel

end Rayfish
