import Rayfish.Hostname
import Rayfish.Invite.Code
import Rayfish.Lib.Run

/-!
# Managed machines

The controllers that a machine has enrolled with ask it to join and leave networks and to
install SSH grants (`management_service.rs`). A request waits for the controller gate, is
checked against the saved grants, and holds the gate until it is done; revoking a controller
takes the gate too.

A join can end in a queue of the network's coordinator. It is then tried again by a loop in
the background, and a saved marker makes the next daemon resume it (`create_join.rs`,
`runtime.rs`). Each change of the machine carries whose request it goes back to.
-/

namespace Rayfish.Management

open Lib

/-! ## Messages and grants -/

structure EnrollmentReceipt where
  controller : EndpointId
  machine : EndpointId
  enrollmentId : BitVec 256
  enrolledAt : Nat
  signature : Nat
  deriving DecidableEq

structure ControllerGrant where
  identity : EndpointId
  enrolledAt : Nat
  receipt : Option EnrollmentReceipt
  deriving DecidableEq

inductive ManagementAction where
  | status
  | confirmEnrollment (receipt : EnrollmentReceipt)
  | join (invite networkName hostname : Name) (autoAcceptFirewall autoAcceptFiles : Bool)
  | leave (networkName : Name)
  | applySsh (networkName : Name) (grants : List (Name × List Name))
  deriving DecidableEq

inductive ManagementResult where
  | status (hostname : Name) (networks : List Name)
  | applied (message : Name)
  | unauthorized
  | error (message : Name)
  deriving DecidableEq

/-- The protocol a connection speaks. -/
inductive ManagementAlpn where
  | v1
  | v2
  | v3
  deriving DecidableEq

def ManagementAction.supportedByV1 : ManagementAction → Bool
  | .status | .join .. | .leave _ => true
  | .confirmEnrollment _ | .applySsh .. => false

def ManagementAction.supportedByV2 : ManagementAction → Bool
  | .applySsh .. => false
  | _ => true

/-- Why a request is refused on a connection. -/
def protocolError (alpn : ManagementAlpn) (action : ManagementAction) : Option Name :=
  if alpn = .v1 ∧ action.supportedByV1 = false then
    some "this operation requires management v2".toList
  else if alpn ≠ .v3 ∧ action.supportedByV2 = false then
    some "this operation requires management v3".toList
  else none

/-- What other code computes: signatures, hashes, keys and how they are printed. -/
structure ManagementLib where
  isKey : EndpointId → Bool
  blake3 : Bytes → BitVec 256
  verifies : EndpointId → Bytes → Nat → Bool
  toText : EndpointId → Name
  fmtShort : EndpointId → Name
  codeError : CodeError → Name

section Receipts

variable (lib : ManagementLib)

def EnrollmentReceipt.signingBytes (receipt : EnrollmentReceipt) : Bytes :=
  "rayfish/enrollment-receipt/1\x00".toUTF8.toList ++ endpointBytes receipt.controller ++
    endpointBytes receipt.machine ++ beBytes 32 receipt.enrollmentId.toNat ++
    (beBytes 8 receipt.enrolledAt).reverse

def EnrollmentReceipt.verify (receipt : EnrollmentReceipt) (controller machine : EndpointId) :
    Bool :=
  receipt.controller = controller && receipt.machine = machine &&
    lib.verifies controller receipt.signingBytes receipt.signature

variable (grants : List ControllerGrant)

def confirmControllerGrant (controller machine : EndpointId)
    (receipt : EnrollmentReceipt) : Except Name (List ControllerGrant) :=
  if receipt.verify lib controller machine = false then
    .error "invalid enrollment receipt".toList
  else if grants.any (·.identity = controller) then
    .ok (grants.modify (grants.findIdx (·.identity = controller)) fun grant =>
      { grant with receipt := some receipt })
  else .error "controller is not authorized".toList

/-- The grants that enrolling with a controller leaves. -/
def enrolledWith (controller : EndpointId) (now : Nat)
    (receipt : Option EnrollmentReceipt) : List ControllerGrant :=
  if grants.any (·.identity = controller) then
    grants.modify (grants.findIdx (·.identity = controller)) fun grant =>
      if receipt.isSome then { grant with receipt := receipt } else grant
  else grants ++ [⟨controller, (receipt.map (·.enrolledAt)).getD now, receipt⟩]

/-- The controllers that a revoke names. -/
def selected (selector : Name) : List EndpointId :=
  (grants.filter fun grant => selector.isPrefixOf (lib.toText grant.identity) ||
    selector.isPrefixOf (lib.fmtShort grant.identity)).map (·.identity)

/-- `revoke_controller`: the grants that stay, and the controllers that are revoked. -/
def revokeController (selector : Option Name) :
    Except Name (List ControllerGrant × List EndpointId) :=
  match selector with
  | none => .ok ([], grants.map (·.identity))
  | some selector =>
    match selected lib grants selector with
    | [] => .error "controller not found".toList
    | [identity] => .ok (grants.filter (·.identity ≠ identity), [identity])
    | _ => .error "controller identity is ambiguous".toList

end Receipts

/-! ## The machine -/

/-- Whose request something goes back to. -/
inductive Origin where
  | machine
  | controller (id : EndpointId)
  deriving DecidableEq

inductive JoinCoordinator where
  | preferred (id : EndpointId)
  | required (id : EndpointId)
  deriving DecidableEq

structure JoinOptions where
  key : EndpointId
  name : Option Name
  hostname : Option Name
  invite : Option Bytes
  coordinator : Option JoinCoordinator
  autoAcceptFirewall : Bool
  autoAcceptFiles : Bool
  deriving DecidableEq

/-- A saved join that is waiting for approval. The origin is not saved. -/
structure PendingJoinEntry where
  key : EndpointId
  name : Option Name
  origin : Origin
  deriving DecidableEq

/-- A loop that tries a queued join again. -/
structure PendingJoinRetry where
  options : JoinOptions
  attempting : Bool
  origin : Origin
  deriving DecidableEq

/-- The task of a new daemon that resumes a saved join. -/
structure PendingJoinResume where
  entry : PendingJoinEntry
  attempting : Bool
  deriving DecidableEq

structure SshRule where
  peer : Name
  users : List Name
  deriving DecidableEq

structure ManagedNetwork where
  name : Name
  key : EndpointId
  live : Bool
  coordinators : List EndpointId
  managedSshAllow : List SshRule
  deriving DecidableEq

/-- What a request that holds the gate waits for. -/
inductive Running where
  | joining (options : JoinOptions)
  | leaving (name : Name)
  deriving DecidableEq

structure Managed where
  controllers : List ControllerGrant
  pendingJoins : List PendingJoinEntry
  networks : List ManagedNetwork
  sshEnabled : Bool
  /-- Requests that have been read and wait for the gate. -/
  waiting : List (EndpointId × ManagementAction)
  running : Option (EndpointId × Running)
  /-- The joins that the machine's own user has started. -/
  joins : List JoinOptions
  retries : List PendingJoinRetry
  resumes : List PendingJoinResume
  deriving DecidableEq

inductive Change where
  | joined (key : EndpointId)
  | left (name : Name)
  | sshEnabled
  | sshGrants (name : Name)
  | controllerGrant (controller : EndpointId)
  deriving DecidableEq

/-- What a step of the machine answers and changes. -/
structure ManagedOut where
  reply : Option (EndpointId × ManagementResult)
  origin : Origin
  changes : List Change
  revoked : List EndpointId

def quietOut : ManagedOut := ⟨none, .machine, [], []⟩

namespace Managed

variable (s : Managed)

variable (key : EndpointId)

def isLiveNetworkKey : Bool :=
  s.networks.any fun net => net.live && net.key = key

def liveNameOfKey : Option Name :=
  (s.networks.find? fun net => net.live && net.key = key).map (·.name)

def removePendingJoin : Managed :=
  { s with pendingJoins := s.pendingJoins.filter (·.key ≠ key) }

def addPendingJoin (entry : PendingJoinEntry) : Managed :=
  if s.pendingJoins.any (·.key = entry.key) then
    { s with
      pendingJoins := s.pendingJoins.set (s.pendingJoins.findIdx (·.key = entry.key)) entry }
  else { s with pendingJoins := s.pendingJoins ++ [entry] }

/-- The key is being joined. -/
def claimed : Bool :=
  (match s.running with
    | some (_, .joining options) => options.key = key
    | _ => false) ||
  s.joins.any (·.key = key) ||
  s.retries.any (fun retry => retry.attempting && retry.options.key = key) ||
  s.resumes.any fun resume => resume.attempting && resume.entry.key = key

end Managed

/-! ## Joining -/

/-- How the network answers a join. -/
inductive JoinReply where
  /-- The machine is let in. `refused` says why it then fails to start the network. -/
  | welcomed (name : Name) (coordinators : List EndpointId) (refused : Option Name)
  | pending
  | denied (reason : Name)
  | failed (reason : Name)

inductive TryJoin where
  | joined (name : Name)
  | pending
  | denied (reason : Name)
  | failed (reason : Name)

section Joins

variable (lib : ManagementLib) (s : Managed) (options : JoinOptions)

/-- `join_network_inner` until it looks the network up. -/
def startJoin : Except Name Unit :=
  if s.claimed options.key then
    .error "this network is already being joined or restored; try again shortly".toList
  else
    match s.liveNameOfKey options.key with
    | some live =>
      if options.name = some live then
        .error ("already in network '".toList ++ live ++ "'".toList)
      else .error ("already in this network as '".toList ++ live ++ "'".toList)
    | none =>
      match options.name with
      | none => .ok ()
      | some name =>
        if s.networks.any fun net => net.name = name && net.key ≠ options.key then
          .error ("network name '".toList ++ name ++ ("' belongs to another network on this " ++
            "node; choose another --name").toList)
        else .ok ()

/-- The name a joined network gets. -/
def displayName (blobName : Name) : Name :=
  match options.name with
  | some name => name
  | none => resolveCollision blobName
      ((s.networks.filter (·.key ≠ options.key)).map (·.name) : Multiset Name)

/-- The required coordinator that the signed roster does not have. A join dials no other. -/
def missingCoordinator (coordinators : List EndpointId) : Option EndpointId :=
  match options.coordinator with
  | some (.required id) => if coordinators.contains id then none else some id
  | _ => none

def joinNetworkInner (reply : JoinReply) : TryJoin × Managed × List Change :=
  match reply with
  | .welcomed blobName coordinators refused =>
    match missingCoordinator options coordinators with
    | some id =>
      (.failed (lib.fmtShort id ++ " is not a coordinator of this network".toList), s, [])
    | none =>
      let name := displayName s options blobName
      let rules := (s.networks.find? (·.name = name)).elim [] (·.managedSshAllow)
      let saved := { s with
        networks := ⟨name, options.key, refused.isNone, coordinators, rules⟩ ::
          s.networks.filter (·.name ≠ name) }
      (refused.elim (.joined name) .failed, saved, [.joined options.key])
  | .pending => (.pending, s, [])
  | .denied reason => (.denied reason, s, [])
  | .failed reason => (.failed reason, s, [])

/-- `queue_pending_join`. The marker may fail to be saved. -/
def queuePendingJoin (origin : Origin) (saves : Bool) : Name × Managed :=
  if s.retries.any (·.options.key = options.key) then
    (("a join request for this network is already queued and keeps the options it was sent " ++
      "with (run `ray status` to check)").toList, s)
  else
    let looping := { s with retries := s.retries ++ [⟨options, false, origin⟩] }
    (("join request sent - waiting for coordinator approval (run `ray status` to " ++
        "check)").toList,
      if saves then looping.addPendingJoin ⟨options.key, options.name, origin⟩ else looping)

inductive JoinOutcome where
  | joined (name : Name)
  | queued (message : Name)
  | failed (reason : Name)

/-- `join_network`, given how the network answers. -/
def joinNetwork (origin : Origin) (reply : JoinReply) (saves : Bool) :
    JoinOutcome × Managed × List Change :=
  match joinNetworkInner lib s options reply with
  | (.joined name, s, changes) => (.joined name, s.removePendingJoin options.key, changes)
  | (.pending, s, changes) =>
    let (message, s) := queuePendingJoin s options origin saves
    (.queued message, s, changes)
  | (.denied reason, s, changes) => (.failed reason, s.removePendingJoin options.key, changes)
  | (.failed reason, s, changes) => (.failed reason, s, changes)

end Joins

/-! ## Requests -/

/-- What the machine itself adds to an action. -/
structure Surroundings where
  localHostname : Except Name Name
  saves : Except Name Unit
  /-- Mesh SSH can be switched on, with a warning perhaps. -/
  enablesSsh : Except Name (Option Name)

section Actions

variable (s : Managed) (controller : EndpointId) (here : Surroundings)

/-- The controller is a coordinator in the roster of a running network. -/
def coordinates (name : Name) : Bool :=
  s.networks.any fun net => net.live && net.name = name && net.coordinators.contains controller

/-- The first grant that is not well formed. -/
def grantsError (grants : List (Name × List Name)) : Option Name :=
  grants.findSome? fun (peer, users) =>
    if peer ≠ ['*'] ∧ isValidHostname peer = false then
      some ("invalid SSH peer hostname '".toList ++ peer ++ "'".toList)
    else if users.contains [] then some "SSH login users cannot be empty strings".toList
    else none

/-- The networks, one of them with new rules. -/
def saveSshGrants (name : Name) (grants : List (Name × List Name)) : List ManagedNetwork :=
  s.networks.map fun net =>
    if net.name = name then
      { net with managedSshAllow := grants.map fun (peer, users) => ⟨peer, users⟩ }
    else net

def applySshGrants (name : Name) (grants : List (Name × List Name)) :
    ManagementResult × Managed × List Change :=
  if (s.networks.any fun net => net.live && net.name = name) = false then
    (.error ("network '".toList ++ name ++ "' not active".toList), s, [])
  else if coordinates s controller name = false then
    (.error "controller is not a coordinator of this network".toList, s, [])
  else
    match grantsError grants with
    | some message => (.error message, s, [])
    | none =>
      match (if grants = [] then .ok none else here.enablesSsh) with
      | .error message => (.error message, s, [])
      | .ok warning =>
        let enabled := if grants = [] then s else { s with sshEnabled := true }
        let changes := if grants = [] then [] else [.sshEnabled]
        match here.saves with
        | .error message =>
          (.error ("failed to save SSH grants: ".toList ++ message), enabled, changes)
        | .ok () =>
          (.applied ("mesh SSH: ".toList ++ (toString grants.length).toList ++
              " grant(s) applied on '".toList ++ name ++ "'".toList ++
              (warning.map ("\n\n".toList ++ ·)).getD []),
            { enabled with networks := saveSshGrants s name grants },
            changes ++ [.sshGrants name])

variable (lib : ManagementLib) (me : EndpointId)

/-- What `apply_action` has come to when it first waits: its end, or what it waits for. -/
def applyAction (action : ManagementAction) :
    (ManagementResult × Managed × List Change) ⊕ Running :=
  match action with
  | .status =>
    match here.localHostname with
    | .ok hostname =>
      .inl (.status hostname ((s.networks.filter (·.live)).map (·.name)), s, [])
    | .error message =>
      .inl (.error ("failed to read machine hostname: ".toList ++ message), s, [])
  | .confirmEnrollment receipt =>
    match here.localHostname with
    | .error message => .inl (.error message, s, [])
    | .ok hostname =>
      match confirmControllerGrant lib s.controllers controller me receipt, here.saves with
      | .ok controllers, .ok () =>
        .inl (.status hostname ((s.networks.filter (·.live)).map (·.name)),
          { s with controllers }, [.controllerGrant controller])
      | .error message, _ | _, .error message => .inl (.error message, s, [])
  | .join invite networkName hostname autoAcceptFirewall autoAcceptFiles =>
    match decodeInviteCode lib.isKey lib.blake3 invite with
    | .error error => .inl (.error (lib.codeError error), s, [])
    | .ok decoded =>
      if decoded.coordinator ≠ controller then
        .inl (.error ("invite was not issued by this controller; a controller can only join " ++
          "networks it coordinates").toList, s, [])
      else
        let options : JoinOptions :=
          { key := decoded.networkKey
            name := some networkName
            hostname := some hostname
            invite := some decoded.secret
            coordinator := some (.required decoded.coordinator)
            autoAcceptFirewall
            autoAcceptFiles }
        match startJoin s options with
        | .error message => .inl (.error message, s, [])
        | .ok () => .inr (.joining options)
  | .leave name =>
    if coordinates s controller name then .inr (.leaving name)
    else
      .inl (.error ("controller does not coordinate network '".toList ++ name ++ "'".toList), s, [])
  | .applySsh name grants => .inl (applySshGrants s controller here name grants)

/-- `remove_network_locally`: the network stops, and its config is deleted if that works. -/
def removeNetworkLocally (name : Name) (deletes : Bool) : Bool × Managed × List Change :=
  let found := s.networks.any fun net => net.name = name && (net.live || deletes)
  (found,
    { s with
      networks :=
        if deletes then s.networks.filter (·.name ≠ name)
        else s.networks.map fun net =>
          if net.name = name then { net with live := false } else net },
    if found then [.left name] else [])

/-- The action that holds the gate is done. -/
def finishAction (running : Running) (reply : JoinReply) (saves : Bool) :
    ManagementResult × Managed × List Change :=
  match running with
  | .joining options =>
    match joinNetwork lib s options (.controller controller) reply saves with
    | (.joined name, s, changes) =>
      (.applied ("managed machine joined '".toList ++ name ++ "'".toList), s, changes)
    | (.queued message, s, changes) => (.applied message, s, changes)
    | (.failed reason, s, changes) => (.error reason, s, changes)
  | .leaving name =>
    match removeNetworkLocally s name saves with
    | (true, s, changes) => (.applied ("left network '".toList ++ name ++ "'".toList), s, changes)
    | (false, s, changes) =>
      (.error ("network '".toList ++ name ++ "' not found".toList), s, changes)

end Actions

/-! ## Steps -/

inductive ManagedAct where
  /-- A request is read from a connection. -/
  | receive (controller : EndpointId) (alpn : ManagementAlpn) (action : ManagementAction)
  /-- A request that waits takes the gate. -/
  | begin (request : Nat) (here : Surroundings)
  | finish (reply : JoinReply) (saves : Bool)
  | revoke (selector : Option Name) (saves : Bool)
  | enroll (controller : EndpointId) (now : Nat) (receipt : Option EnrollmentReceipt)
  /-- The machine's own user joins or leaves a network. -/
  | join (options : JoinOptions)
  | joinReply (task : Nat) (reply : JoinReply) (saves : Bool)
  | leave (name : Name) (deletes : Bool)
  /-- A loop wakes up. -/
  | retryWake (task : Nat) (destroyed : Bool)
  | retryReply (task : Nat) (reply : JoinReply)
  | resumeWake (task : Nat)
  | resumeReply (task : Nat) (reply : JoinReply) (saves : Bool)
  /-- A roster of a network arrives. -/
  | roster (name : Name) (coordinators : List EndpointId)
  /-- A new daemon has these networks running when it resumes the saved joins. -/
  | restart (running : List Name)
  /-- A saved network is running again. -/
  | restored (name : Name)

/-- What a resumed join asks for: the marker keeps no more. -/
def resumedOptions (entry : PendingJoinEntry) : JoinOptions :=
  ⟨entry.key, entry.name, none, none, none, false, false⟩

variable (lib : ManagementLib) (me : EndpointId)

/-- A loop's attempt ends (`retry_pending_join`). -/
def retryReplied (s : Managed) (task : Nat) (retry : PendingJoinRetry) (reply : JoinReply) :
    Managed × List Change :=
  let slept := { s with retries := s.retries.set task { retry with attempting := false } }
  let ended := { s with retries := s.retries.eraseIdx task }
  match joinNetworkInner lib s retry.options reply with
  | (.joined _, s, changes) =>
    ({ s with retries := ended.retries }.removePendingJoin retry.options.key, changes)
  | (.denied _, _, changes) => (ended.removePendingJoin retry.options.key, changes)
  | (.pending, s, changes) | (.failed _, s, changes) =>
    ({ s with retries := slept.retries }, changes)

def managedStep (s : Managed) : ManagedAct → Option (ManagedOut × Managed)
  | .receive controller alpn action =>
    match protocolError alpn action with
    | some message => some ({ quietOut with reply := some (controller, .error message) }, s)
    | none => some (quietOut, { s with waiting := s.waiting ++ [(controller, action)] })
  | .begin request here =>
    match s.running, s.waiting[request]? with
    | none, some (controller, action) =>
      let s := { s with waiting := s.waiting.eraseIdx request }
      if s.controllers.any (·.identity = controller) then
        match applyAction s controller here lib me action with
        | .inl (result, s, changes) =>
          some (⟨some (controller, result), .controller controller, changes, []⟩, s)
        | .inr running => some (quietOut, { s with running := some (controller, running) })
      else some ({ quietOut with reply := some (controller, .unauthorized) }, s)
    | _, _ => none
  | .finish reply saves =>
    match s.running with
    | some (controller, running) =>
      let (result, s, changes) := finishAction { s with running := none } controller lib running
        reply saves
      some (⟨some (controller, result), .controller controller, changes, []⟩, s)
    | none => none
  | .revoke selector saves =>
    if s.running.isSome then none
    else
      match revokeController lib s.controllers selector with
      | .error _ => some (quietOut, s)
      | .ok (controllers, revoked) =>
        if saves then
          some (⟨none, .machine, revoked.map .controllerGrant, revoked⟩, { s with controllers })
        else some (quietOut, s)
  | .enroll controller now receipt =>
    if s.running.isSome then none
    else
      some (⟨none, .machine, [.controllerGrant controller], []⟩,
        { s with controllers := enrolledWith s.controllers controller now receipt })
  | .join options =>
    match startJoin s options with
    | .ok () => some (quietOut, { s with joins := s.joins ++ [options] })
    | .error _ => some (quietOut, s)
  | .joinReply task reply saves =>
    match s.joins[task]? with
    | some options =>
      let (_, s, changes) := joinNetwork lib { s with joins := s.joins.eraseIdx task } options
        .machine reply saves
      some (⟨none, .machine, changes, []⟩, s)
    | none => none
  | .leave name deletes =>
    let (_, s, changes) := removeNetworkLocally s name deletes
    some (⟨none, .machine, changes, []⟩, s)
  | .retryWake task destroyed =>
    match s.retries[task]? with
    | some ⟨options, false, origin⟩ =>
      let ended := { s with retries := s.retries.eraseIdx task }
      if s.isLiveNetworkKey options.key || destroyed then
        some (quietOut, ended.removePendingJoin options.key)
      else
        match startJoin s options with
        | .ok () =>
          some (quietOut, { s with retries := s.retries.set task ⟨options, true, origin⟩ })
        | .error _ => some (quietOut, s)
    | _ => none
  | .retryReply task reply =>
    match s.retries[task]? with
    | some ⟨options, true, origin⟩ =>
      let (s, changes) := retryReplied lib s task ⟨options, true, origin⟩ reply
      some (⟨none, origin, changes, []⟩, s)
    | _ => none
  | .resumeWake task =>
    match s.resumes[task]? with
    | some ⟨entry, false⟩ =>
      if s.pendingJoins.any (·.key = entry.key) && !s.isLiveNetworkKey entry.key then
        match startJoin s (resumedOptions entry) with
        | .ok () => some (quietOut, { s with resumes := s.resumes.set task ⟨entry, true⟩ })
        | .error _ => some (quietOut, s)
      else some (quietOut, { s with resumes := s.resumes.eraseIdx task })
    | _ => none
  | .resumeReply task reply saves =>
    match s.resumes[task]? with
    | some ⟨entry, true⟩ =>
      match joinNetwork lib s (resumedOptions entry) entry.origin reply saves with
      | (.failed _, s, changes) =>
        some (⟨none, entry.origin, changes, []⟩,
          { s with resumes := s.resumes.set task ⟨entry, false⟩ })
      | (_, s, changes) =>
        some (⟨none, entry.origin, changes, []⟩, { s with resumes := s.resumes.eraseIdx task })
    | _ => none
  | .roster name coordinators =>
    some (quietOut, { s with
      networks := s.networks.map fun net =>
        if net.name = name then { net with coordinators } else net })
  | .restart running =>
    let networks := s.networks.map fun net => { net with live := running.contains net.name }
    -- a marker of a network that is running again is stale
    let kept := s.pendingJoins.filter fun entry =>
      !networks.any fun net => net.live && net.key = entry.key
    some (quietOut, { s with
      pendingJoins := kept
      networks
      waiting := []
      running := none
      joins := []
      retries := []
      resumes := kept.map fun entry => ⟨entry, false⟩ })
  | .restored name =>
    some (quietOut, { s with
      networks := s.networks.map fun net =>
        if net.name = name then { net with live := true } else net })

end Rayfish.Management
