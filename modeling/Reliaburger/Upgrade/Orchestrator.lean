import Reliaburger.Sesame.Security

/-! The leader's rolling upgrade: workers in batches, then the council one at a time, then the
leader itself. One tick polls the nodes of the current group, directs the next ones and moves the
run's phase.
-/

namespace Reliaburger

-- The replicated state of a run

/-- A binary version, as it is displayed: `v1.2.3`. -/
structure BinaryVersion where
  display : String
deriving DecidableEq, Repr

structure PlatformBinary where
  /-- `os-arch` as nodes report it. -/
  platform : String
  sha256 : String
  embeddedSignature : String
  externalSignature : Option String
deriving DecidableEq, Repr

inductive UpgradeDirection where
  | upgrade
  | rollback
deriving DecidableEq, Repr

/-- How far the roll has come. -/
inductive ClusterUpgradePhase where
  | preparing
  | upgradingWorkers
  | upgradingCouncil
  | transferringLeadership
  | upgradingLeader
  | completed
  | paused (reason : String)
  | aborted (reason : String)
deriving DecidableEq, Repr

inductive NodeRole where
  | worker
  | council
  | leader
deriving DecidableEq, Repr

/-- How far one node has come. -/
inductive NodeUpgradePhase where
  | pending
  /-- The node took the directive. -/
  | directed
  /-- The node reports the upgrade in flight. -/
  | verifying
  | healthy
  | failed (reason : String)
  | rolledBack
deriving DecidableEq, Repr

/-- Transient directive failures that the run is riding out for one node. -/
structure DirectiveRetry where
  attempts : Nat
  firstFailedAt : SystemTime
  lastFailedAt : SystemTime
  lastError : String
deriving DecidableEq, Repr

/-- One node of the roll. -/
structure NodeUpgradeRecord where
  nodeId : String
  address : String
  role : NodeRole
  platform : Option String := none
  fromVersion : Option BinaryVersion := none
  phase : NodeUpgradePhase := .pending
  /-- When the node entered its phase. -/
  since : Option SystemTime := none
  directiveRetry : Option DirectiveRetry := none
deriving DecidableEq, Repr

/-- A roll: what is rolled out, and its nodes in order. -/
structure ClusterUpgradeState where
  upgradeId : String
  targetVersion : BinaryVersion
  /-- One build for each platform; none for a rollback. -/
  binaries : List PlatformBinary
  /-- How many workers go at once. -/
  parallel : Nat
  direction : UpgradeDirection
  phase : ClusterUpgradePhase
  registryAddress : String
  allowDowngrade : Bool
  nodes : List NodeUpgradeRecord
deriving DecidableEq, Repr

/-- The build for a node on `platform`; for an unknown platform only an unambiguous one. -/
def selectBinary (binaries : List PlatformBinary) (platform : Option String)
    : Option PlatformBinary :=
  match platform with
  | some platform => binaries.find? (fun binary => binary.platform == platform)
  | none =>
    match binaries with
    | [only] => some only
    | _ => none

def ClusterUpgradeState.binaryFor (state : ClusterUpgradeState) (platform : Option String)
    : Option PlatformBinary :=
  selectBinary state.binaries platform

/-- The directive a node gets for one platform's build; nodes fetch the binary from the registry
at `registryAddress`. -/
structure UpgradeDirective where
  upgradeId : String
  targetVersion : BinaryVersion
  binarySha256 : String
  embeddedSignature : String
  externalSignature : Option String
  registryAddress : String
  networkProvenance : Bool
  allowDowngrade : Bool
deriving DecidableEq, Repr

def buildDirective (state : ClusterUpgradeState) (binary : PlatformBinary) : UpgradeDirective where
  upgradeId := state.upgradeId
  targetVersion := state.targetVersion
  binarySha256 := binary.sha256
  embeddedSignature := binary.embeddedSignature
  externalSignature := binary.externalSignature
  registryAddress := state.registryAddress
  networkProvenance := true
  allowDowngrade := state.allowDowngrade

def directiveFor (state : ClusterUpgradeState) (platform : Option String)
    : Except String UpgradeDirective :=
  match state.binaryFor platform with
  | some binary => .ok (buildDirective state binary)
  | none =>
    let version := state.targetVersion.display
    let name := platform.getD "unknown"
    .error s!"the upgrade carries no {version} build for platform {name}"

-- What nodes answer

/-- Why a node did not take a directive. -/
inductive DirectiveError where
  | transient (reason : String)
  | refused (reason : String)
deriving DecidableEq, Repr

structure NodeProbe where
  version : BinaryVersion
  healthy : Bool
  upgradeInFlight : Bool
  /-- Runs the node attempted and reverted. -/
  failedUpgradeIds : List String
  binarySha256 : Option String
  platform : Option String
deriving DecidableEq, Repr

/-- The nodes' answers during one tick. A call is told apart by the position of the record it is
made for, so two records with one address may be answered differently. -/
structure NodeControl where
  probe : Nat → String → Option NodeProbe
  directUpgrade : Nat → String → UpgradeDirective → Except DirectiveError Unit
  directRollback : Nat → String → BinaryVersion → Except DirectiveError Unit

/-- What a tick knows of the cluster and the time. -/
structure StepContext where
  selfNodeId : String
  /-- The council can lose one more member without losing quorum. -/
  quorumOk : Bool
  gossipAliveIds : BTreeSet String
  now : SystemTime

def StepContext.isGossipAlive (context : StepContext) (nodeId : String) : Bool :=
  nodeId == context.selfNodeId || context.gossipAliveIds.contains nodeId

-- One record

/-- How long a node may stay directed or verifying. -/
def nodeTimeout : Int := seconds 300

/-- How long a directive that fails transiently is sent again. -/
def directiveRetryWindow : Int := seconds 120

/-- The time that has passed since `earlier`, unless the clock is behind it. -/
def elapsedSince (now earlier : SystemTime) : Option Int :=
  if earlier ≤ now then some (now - earlier) else none

namespace NodeUpgradePhase

/-- Whether a node was directed and has not reported back. -/
def isInFlight : NodeUpgradePhase → Bool
  | .directed | .verifying => true
  | _ => false

def mayHaveMoved : NodeUpgradePhase → Bool
  | .directed | .verifying | .healthy => true
  | _ => false

end NodeUpgradePhase

namespace NodeUpgradeRecord

def setPhase (record : NodeUpgradeRecord) (phase : NodeUpgradePhase) (now : SystemTime)
    : NodeUpgradeRecord :=
  { record with phase, since := some now, directiveRetry := none }

/-- Fail a node that has been under way for too long. -/
def checkTimeout (record : NodeUpgradeRecord) (now : SystemTime) : NodeUpgradeRecord :=
  if record.phase.isInFlight
      && ((record.since.bind (elapsedSince now)).any (fun elapsed => nodeTimeout < elapsed)) then
    { record with
      phase := .failed s!"node {record.nodeId} did not reach the target version within 300s"
      since := some now }
  else record

/-- The wait before the next attempt: doubled per failed attempt, capped. -/
def retryBackoff (attempts : Nat) : Int :=
  min (seconds 3 * 2 ^ (min (attempts - 1) 16)) (seconds 30)

/-- A clock behind the last failure does not hold the slot. -/
def retryDue (retry : DirectiveRetry) (now : SystemTime) : Bool :=
  match elapsedSince now retry.lastFailedAt with
  | some waited => decide (retryBackoff retry.attempts ≤ waited)
  | none => true

/-- The node stays pending until the retry window has gone by since the first failure. -/
def recordTransientFailure (record : NodeUpgradeRecord) (reason : String) (now : SystemTime)
    : NodeUpgradeRecord :=
  let attempts := (record.directiveRetry.map (·.attempts + 1)).getD 1
  let firstFailedAt := (record.directiveRetry.map (·.firstFailedAt)).getD now
  let elapsed := (elapsedSince now firstFailedAt).getD 0
  let passed := elapsed / 1000000000
  if directiveRetryWindow ≤ elapsed then
    record.setPhase
      (.failed s!"directive to {record.nodeId} still failing after {attempts} attempts over {passed}s: {reason}")
      now
  else
    { record with directiveRetry := some ⟨attempts, firstFailedAt, now, reason⟩ }

variable (state : ClusterUpgradeState)

/-- Whether the node runs the run's own build for its platform. -/
def runsBinary (record : NodeUpgradeRecord) (probe : NodeProbe) : Bool :=
  match probe.binarySha256, state.binaryFor record.platform with
  | some sha, some expected => sha.map Char.toLower == expected.sha256.map Char.toLower
  | _, _ => false

/-- What a polled node's answer makes of its record. -/
def judge (context : StepContext) (probe : NodeProbe) (record : NodeUpgradeRecord)
    : NodeUpgradeRecord :=
  let target := state.targetVersion
  let shown := target.display
  let seen := probe.version.display
  if probe.failedUpgradeIds.contains state.upgradeId && record.phase.mayHaveMoved then
    record.setPhase
      (.failed s!"node {record.nodeId} reverted the upgrade (came back on {seen})") context.now
  else if probe.version = target && probe.healthy && !probe.upgradeInFlight then
    -- The version is no proof of the binary.
    if state.direction = .upgrade && !record.runsBinary state probe then
      let digest := probe.binarySha256.getD "unknown"
      record.setPhase
        (.failed s!"node {record.nodeId} runs {shown} but not this binary (sha256 {digest}); a same-version upgrade cannot swap it")
        context.now
    else if context.isGossipAlive record.nodeId then record.setPhase .healthy context.now
    else if record.phase = .directed then record.setPhase .verifying context.now
    else record.checkTimeout context.now
  else
    match record.phase with
    | .directed =>
      if probe.upgradeInFlight then record.setPhase .verifying context.now
      else record.checkTimeout context.now
    | .verifying =>
      if !probe.upgradeInFlight && probe.version ≠ target then
        record.setPhase
          (.failed s!"node {record.nodeId} reverted to {seen} (upgrade to {shown} failed)")
          context.now
      else record.checkTimeout context.now
    | .healthy =>
      if probe.version ≠ target && !probe.upgradeInFlight then
        record.setPhase
          (.failed s!"node {record.nodeId} reverted to {seen} after reporting healthy (upgrade to {shown} failed)")
          context.now
      else record.checkTimeout context.now
    | _ => record.checkTimeout context.now

/-- The record of a node once it was probed. -/
def poll (context : StepContext) (probe : Option NodeProbe) (record : NodeUpgradeRecord)
    : NodeUpgradeRecord :=
  match record.phase with
  | .failed _ | .rolledBack => record
  | _ =>
    match probe with
    | none => record.checkTimeout context.now
    | some probe =>
      judge state context probe
        { record with
          fromVersion := record.fromVersion.or (some probe.version)
          platform := record.platform.or probe.platform }

/-- Send a node its directive, forward or back. -/
def send (control : NodeControl) (index : Nat) (record : NodeUpgradeRecord)
    : Except DirectiveError Unit :=
  match state.direction with
  | .upgrade =>
    match directiveFor state record.platform with
    | .ok directive => control.directUpgrade index record.address directive
    | .error reason => .error (.refused reason)
  | .rollback => control.directRollback index record.address state.targetVersion

end NodeUpgradeRecord

-- One group

namespace ClusterUpgradeState

variable (state : ClusterUpgradeState)

/-- How many nodes of a group may be under way at once. -/
def budget (role : NodeRole) : Nat :=
  if role = .worker then max state.parallel 1 else 1

/-- Probe the nodes of a group. -/
def pollGroup (control : NodeControl) (context : StepContext) (role : NodeRole)
    : List NodeUpgradeRecord :=
  state.nodes.mapIdx (fun index record =>
    if record.role = role then record.poll state context (control.probe index record.address)
    else record)

/-- Whether there is a directive to send; for want of a build the node is failed without one. -/
def hasDirective (record : NodeUpgradeRecord) : Bool :=
  state.direction = .rollback || (state.binaryFor record.platform).isSome

/-- Direct the pending nodes of a group while there are slots. A node that waits to retry keeps
its slot; a refusal stops the walk. With the records, the positions that were sent a directive.
-/
def directPending (state : ClusterUpgradeState) (control : NodeControl) (context : StepContext)
    (role : NodeRole)
    : Nat → Nat → List NodeUpgradeRecord → List NodeUpgradeRecord × List Nat
  | _, _, [] => ([], [])
  | _, 0, records => (records, [])
  | index, slots + 1, record :: rest =>
    if record.role ≠ role ∨ record.phase ≠ .pending then
      let (after, sent) := directPending state control context role (index + 1) (slots + 1) rest
      (record :: after, sent)
    else if record.directiveRetry.any (fun retry =>
        !NodeUpgradeRecord.retryDue retry context.now) then
      let (after, sent) := directPending state control context role (index + 1) slots rest
      (record :: after, sent)
    else
      match record.send state control index with
      | .ok () =>
        let (after, sent) := directPending state control context role (index + 1) slots rest
        (record.setPhase .directed context.now :: after, index :: sent)
      | .error (.transient reason) =>
        let (after, sent) := directPending state control context role (index + 1) slots rest
        (record.recordTransientFailure reason context.now :: after, index :: sent)
      | .error (.refused reason) =>
        let failed :=
          record.setPhase (.failed s!"directive to {record.nodeId} refused: {reason}") context.now
        (failed :: rest, if state.hasDirective record then [index] else [])

def inFlight (role : NodeRole) (nodes : List NodeUpgradeRecord) : Nat :=
  nodes.countP (fun record => record.role = role && record.phase.isInFlight)

def hasFailure (role : NodeRole) (nodes : List NodeUpgradeRecord) : Bool :=
  nodes.any (fun record =>
    record.role = role && (match record.phase with | .failed _ => true | _ => false))

/-- The new nodes that a group may have directed in a tick: none once a member has failed. -/
def freeSlots (role : NodeRole) (mayDirectNew : Bool) (polled : List NodeUpgradeRecord) : Nat :=
  if mayDirectNew && !hasFailure role polled then state.budget role - inFlight role polled else 0

/-- Poll a group and direct new nodes of it up to its budget. The directives sent again to nodes
directed in earlier ticks change no record, whatever the answer. -/
def pollAndDriveGroup (control : NodeControl) (context : StepContext) (role : NodeRole)
    (mayDirectNew : Bool)
    : ClusterUpgradeState × List Nat :=
  let polled := state.pollGroup control context role
  let (nodes, sent) :=
    directPending state control context role 0 (state.freeSlots role mayDirectNew polled) polled
  ({ state with nodes }, sent)

-- The walk

def firstFailure : Option String :=
  state.nodes.findSome? (fun record =>
    match record.phase with
    | .failed reason => some reason
    | _ => none)

/-- Whether every node of a group is healthy. -/
def groupDone (role : NodeRole) : Bool :=
  (state.nodes.filter (fun record => record.role = role)).all (fun record =>
    record.phase = .healthy)

/-- Pause on a failure, or move on once the group is done. -/
def settle (role : NodeRole) (next : ClusterUpgradePhase) : ClusterUpgradeState :=
  match state.firstFailure with
  | some reason => { state with phase := .paused reason }
  | none => if state.groupDone role then { state with phase := next } else state

/-- One tick, with the positions of the pending nodes that it sends a directive. -/
def drive (control : NodeControl) (context : StepContext) : ClusterUpgradeState × List Nat :=
  match state.phase with
  | .completed | .paused _ | .aborted _ => (state, [])
  | .preparing => ({ state with phase := .upgradingWorkers }, [])
  | .upgradingWorkers =>
    let (driven, sent) := state.pollAndDriveGroup control context .worker true
    (driven.settle .worker .upgradingCouncil, sent)
  | .upgradingCouncil =>
    let (driven, sent) := state.pollAndDriveGroup control context .council context.quorumOk
    let next :=
      if driven.nodes.any (fun record => record.role = .leader) then .transferringLeadership
      else .completed
    (driven.settle .council next, sent)
  | .transferringLeadership => ({ state with phase := .upgradingLeader }, [])
  | .upgradingLeader =>
    let (driven, sent) := state.pollAndDriveGroup control context .leader context.quorumOk
    (driven.settle .leader .completed, sent)

/-- The state after a tick. -/
def step (control : NodeControl) (context : StepContext) : ClusterUpgradeState :=
  (state.drive control context).1

/-- The nodes that a tick sends a directive, in order. -/
def directives (control : NodeControl) (context : StepContext) : List Nat :=
  (state.drive control context).2

def resumeRecord (record : NodeUpgradeRecord) : NodeUpgradeRecord :=
  match record.phase with
  | .failed _ => { record with phase := .pending, since := none, directiveRetry := none }
  | _ => { record with directiveRetry := none }

/-- Un-pause a run: failed nodes are pending again, under a fresh upgrade id, and the earliest
unfinished group is next. -/
def resume : ClusterUpgradeState :=
  match state.phase with
  | .paused _ =>
    let retried :=
      { state with
        upgradeId := state.upgradeId ++ "-retry"
        nodes := state.nodes.map resumeRecord }
    { retried with
      phase :=
        if !retried.groupDone .worker then .upgradingWorkers
        else if !retried.groupDone .council then .upgradingCouncil
        else .transferringLeadership }
  | _ => state

end ClusterUpgradeState

end Reliaburger
