import Reliaburger.Onion.Endpoints
import Reliaburger.Sesame.Security
import Reliaburger.Store.Apply

/-! The state that the council replicates: what should run and what is recorded about it, the
image registry, service discovery, security, the node fault in progress, and the test leases, each
the durable ownership of a namespace until all that was created in it is known to be gone.
-/

namespace Reliaburger

open Checks

-- Ordered identities

instance : Ord AppId := ⟨compareLex (compareOn AppId.name) (compareOn AppId.ns)⟩

instance : Std.TransOrd AppId :=
  inferInstanceAs (Std.TransCmp (compareLex (compareOn AppId.name) (compareOn AppId.ns)))

instance : Std.LawfulEqOrd AppId where
  eq_of_compare {first second} same := by
    have fields : (compare first.name second.name).then (compare first.ns second.ns) = .eq := same
    rw [Ordering.then_eq_eq] at fields
    cases first
    cases second
    simp_all

inductive LeasedResource where
  | app (appId : AppId)
  | job (jobId : AppId)
  | namespaced (name : String)
  /-- An exact credential, by the fingerprint of its secret. -/
  | apiToken (name fingerprint : String)
deriving DecidableEq, Repr

namespace LeasedResource

def kind : LeasedResource → Nat
  | .app _ => 0
  | .job _ => 1
  | .namespaced _ => 2
  | .apiToken _ _ => 3

def firstField : LeasedResource → String
  | .app appId => appId.name
  | .job jobId => jobId.name
  | .namespaced name => name
  | .apiToken name _ => name

def secondField : LeasedResource → String
  | .app appId => appId.ns
  | .job jobId => jobId.ns
  | .namespaced _ => ""
  | .apiToken _ fingerprint => fingerprint

def cmp : LeasedResource → LeasedResource → Ordering :=
  compareLex (compareOn kind) (compareLex (compareOn firstField) (compareOn secondField))

instance : Ord LeasedResource := ⟨cmp⟩

instance : Std.TransOrd LeasedResource :=
  inferInstanceAs (Std.TransCmp
    (compareLex (compareOn kind) (compareLex (compareOn firstField) (compareOn secondField))))

end LeasedResource

/-- A node that may still run a leased app. -/
structure LeasedPlacement where
  appId : AppId
  nodeId : NodeId
deriving DecidableEq, Repr

instance : Ord LeasedPlacement :=
  ⟨compareLex (compareOn LeasedPlacement.appId) (compareOn LeasedPlacement.nodeId)⟩

instance : Std.TransOrd LeasedPlacement :=
  inferInstanceAs (Std.TransCmp
    (compareLex (compareOn LeasedPlacement.appId) (compareOn LeasedPlacement.nodeId)))

-- Leases

def testLeaseSchemaVersion : Nat := 5

def maxActiveTestLeases : Nat := 64

def maxLeasedResources : Nat := 128

def maxLeasedPlacements : Nat := 65536

/-- Which kinds of resource a lease may own. -/
inductive LeaseScope where
  | applications
  | nodeJobs
deriving DecidableEq, Repr

inductive TestLeaseState where
  | active
  /-- Cleanup has started; the record stays until every resource is gone. -/
  | cleaning (attempts : Nat) (lastError : Option String)
deriving DecidableEq, Repr

def TestLeaseState.isCleaning : TestLeaseState → Bool
  | .active => false
  | .cleaning _ _ => true

structure TestLease where
  schemaVersion : Nat
  scope : LeaseScope
  leaseId : String
  /-- The fingerprint of the credential that created the lease. -/
  ownerId : String
  ownerName : String
  ns : String
  state : TestLeaseState
  issuedAtUnixMs : Nat
  expiresAtUnixMs : Nat
  resources : BTreeSet LeasedResource
  placements : BTreeSet LeasedPlacement
  /-- Repositories and the nodes that may hold uploads for them. -/
  repositories : BTreeMap String (BTreeSet Nat)
  /-- Confirmed before repositories may be deleted. -/
  workloadsRetired : Bool

inductive LeaseError where
  | imageOwnership
  | unsupportedSchema (found : Nat)
  | invalidId
  | invalidScope
  | invalidOwner
  | invalidNamespace
  | invalidExpiry
  | wrongOwner
  | notActive
  | namespaceMismatch
  | invalidToken
  | resourceLimit
deriving DecidableEq, Repr

def startsWith (text : String) (start : String) : Bool :=
  start.toList.isPrefixOf text.toList

/-- A reserved namespace that lease-wide cleanup may empty. -/
def validTestNamespace (ns : String) : Bool :=
  startsWith ns "rbtest-"
    && ns.utf8ByteSize ≤ 63
    && ns.toList.all (fun char =>
      ('a' ≤ char && char ≤ 'z') || ('0' ≤ char && char ≤ '9') || char == '-')
    && ns.toList.getLast? != some '-'

def isNodeJobLease (leaseId : String) : Bool :=
  startsWith leaseId "node-jobs-"

namespace TestLease

variable (lease : TestLease)

/-- Whether the lease may still accept a change. -/
def isActiveAt (nowUnixMs : Nat) : Bool :=
  lease.state == .active && nowUnixMs < lease.expiresAtUnixMs

/-- Workload, credential and repository resources count together. -/
def resourceCount : Nat :=
  lease.resources.size + lease.repositories.size

def validPathPart (part : List Char) : Bool :=
  let lower (char : Char) : Bool := ('a' ≤ char && char ≤ 'z') || ('0' ≤ char && char ≤ '9')
  let alphanumeric (char : Char) : Bool := lower char || ('A' ≤ char && char ≤ 'Z')
  !part.isEmpty
    && part.head?.any alphanumeric
    && part.getLast?.any alphanumeric
    && part.all (fun char => lower char || char == '.' || char == '_' || char == '-')

/-- Whether a repository path lies beneath the lease's namespace. -/
def ownsRepositoryName (repository : String) : Bool :=
  match splitOnce '/' repository.toList with
  | none => false
  | some (ns, path) =>
    ns == lease.ns.toList
      && repository.utf8ByteSize ≤ 255
      && (splitChars (· == '/') path).all validPathPart

/-- A lease's id, namespace and scope fit together. -/
def scopeFits : Bool :=
  match lease.scope with
  | .applications => !(isNodeJobLease lease.leaseId || startsWith lease.ns "rbtest-node-")
  | .nodeJobs =>
    isNodeJobLease lease.leaseId
      && let suffix := lease.leaseId.toList.drop "node-jobs-".length
        (String.ofList suffix).utf8ByteSize == 32
          && suffix.all (fun char =>
            ('0' ≤ char && char ≤ '9') || ('a' ≤ char && char ≤ 'f'))
          && lease.ns == "rbtest-node-" ++ String.ofList suffix

/-- Whether a resource is outside the lease's namespace. -/
def strays : LeasedResource → Bool
  | .app appId => appId.ns != lease.ns
  | .job jobId => jobId.ns != lease.ns
  | .namespaced name => name != lease.ns
  | .apiToken name _ => !startsWith name (lease.ns ++ "-")

def isJob : LeasedResource → Bool
  | .job _ => true
  | _ => false

def validate : Except LeaseError Unit := do
  refuseIf (lease.schemaVersion ≠ testLeaseSchemaVersion) (.unsupportedSchema lease.schemaVersion)
  refuseIf (lease.leaseId.isEmpty = true) .invalidId
  refuseIf (lease.ownerId.isEmpty = true ∨ lease.ownerName.isEmpty = true) .invalidOwner
  refuseIf (validTestNamespace lease.ns = false) .invalidNamespace
  refuseIf (lease.expiresAtUnixMs ≤ lease.issuedAtUnixMs) .invalidExpiry
  refuseIf (lease.scopeFits = false) .invalidScope
  refuseIf
    (lease.resources.toList.any (fun resource =>
      isJob resource != (lease.scope == .nodeJobs)) = true)
    .invalidScope
  refuseIf (lease.resources.toList.any lease.strays = true) .namespaceMismatch
  refuseIf
    (lease.placements.toList.any (fun placement =>
      placement.nodeId.isEmpty || !lease.resources.contains (.app placement.appId)
        || lease.scope != .applications) = true)
    .invalidScope
  refuseIf (lease.placements.size > maxLeasedPlacements) .resourceLimit
  refuseIf
    ((!lease.repositories.isEmpty && lease.scope != .applications)
      || lease.repositories.keys.any (fun name => !lease.ownsRepositoryName name)
      || (lease.workloadsRetired && (lease.state == .active || !lease.placements.isEmpty)))
    .invalidScope
  refuseIf ((lease.repositories.valueList.map (·.size)).sum > maxLeasedPlacements) .resourceLimit
  refuseIf (lease.resourceCount > maxLeasedResources) .resourceLimit

def authoriseOwner (ownerId : String) (nowUnixMs : Nat) : Except LeaseError Unit := do
  refuseIf (lease.ownerId ≠ ownerId) .wrongOwner
  refuseIf (lease.isActiveAt nowUnixMs = false) .notActive

/-- Record a possible storage owner before bytes are accepted. A claim without an owner may join
a repository, never create one. -/
def attachRegistryWriter (repository : String) (nodeId : Nat) (ownerId : Option String)
    (nowUnixMs : Nat)
    : Except LeaseError TestLease := do
  refuseIf (lease.scope ≠ .applications ∨ lease.ownsRepositoryName repository = false)
    .namespaceMismatch
  match ownerId with
  | some ownerId => lease.authoriseOwner ownerId nowUnixMs
  | none =>
    refuseIf (lease.isActiveAt nowUnixMs = false ∨ repository ∉ lease.repositories) .notActive
  let writers := lease.repositories[repository]?.getD ∅
  let next := { lease with
    repositories := lease.repositories.insert repository (writers.insert nodeId) }
  next.validate
  pure next

def permitsRegistryCopy (repository : String) (nodeId nowUnixMs : Nat) : Bool :=
  lease.isActiveAt nowUnixMs
    && lease.ownsRepositoryName repository
    && lease.repositories[repository]?.any (fun owners => owners.contains nodeId)

def permitsRegistryCommit (commit : ManifestCommit) (nowUnixMs : Nat) : Bool :=
  commit.holderNodes == (∅ : BTreeSet Nat).insert commit.manifest.pushedBy
    && lease.permitsRegistryCopy commit.manifest.repository commit.manifest.pushedBy nowUnixMs

/-- Whether every possible storage node has confirmed retirement. -/
def registryRetirementConfirmed : Bool :=
  lease.repositories.isEmpty
    || (lease.workloadsRetired && lease.repositories.valueList.all (·.isEmpty))

def permitsImage (nowUnixMs : Nat) (repository : String) : Bool :=
  lease.scope == .applications
    && lease.isActiveAt nowUnixMs
    && lease.ownsRepositoryName repository
    && lease.repositories.contains repository

end TestLease

/-- A disposable image may only be used by its active owning lease. `repositories` are those of
the image references that parse. -/
def authoriseImageReferences (repositories : List String) (lease : Option (TestLease × Nat))
    : Except LeaseError Unit :=
  Checks.checkAll
    (fun repository => Checks.refuseIf
      (isTestRepository repository = true
        ∧ lease.all (fun lease => !lease.1.permitsImage lease.2 repository) = true)
      .imageOwnership)
    repositories

-- Node faults

inductive FaultType where
  | delay (delayNs jitterNs : Nat) (sourceApp : Option String)
  | drop (probability : Nat)
  | dnsNxdomain
  | partition (sourceApp : Option String)
  | councilPartition (peers : List String)
  | bandwidth (bytesPerSec : Nat)
  | cpuStress (percentage : Nat) (cores : Option Nat)
  | memoryPressure (percentage : Nat)
  | diskIoThrottle (bytesPerSec : Nat) (writeOnly : Bool)
  | kill (count : Nat)
  | pause
  | resume
  | nodeDrain
  | nodeKill (killContainers : Bool)
  | nodePressure (cpuPercentage memoryPercentage : Nat)
deriving DecidableEq, Repr

def FaultType.requiresAdminReversal : FaultType → Bool
  | .nodeDrain | .nodeKill _ | .councilPartition _ | .nodePressure _ _ => true
  | _ => false

structure FaultRequest where
  faultType : FaultType
  targetNode : Option String
  /-- Nanoseconds. -/
  duration : Nat
  /-- The other fields, as they were sent. -/
  details : String
deriving DecidableEq, Repr

structure NodeFaultReservation where
  sequence : Nat
  bootId : String
  request : FaultRequest
  cleanupAfterUnixMs : Nat
deriving DecidableEq, Repr

structure NodeFaultReservations where
  lastSequence : Nat := 0
  active : Option NodeFaultReservation := none
deriving DecidableEq, Repr

namespace NodeFaultReservations

def reserveFault (reservations : NodeFaultReservations) (reservation : NodeFaultReservation)
    : Except String NodeFaultReservations :=
  match reservations.active with
  | some active =>
    let owner := active.sequence
    if active = reservation then .ok reservations
    else .error s!"node fault capacity is reserved by operation {owner}"
  | none => do
      refuseIf
        (¬(reservations.lastSequence + 1 < u64Size
          ∧ reservations.lastSequence + 1 = reservation.sequence))
        "stale or exhausted node fault reservation sequence"
      refuseIf
        (reservation.bootId.isEmpty = true
          ∨ reservation.request.targetNode.all (·.isEmpty) = true
          ∨ reservation.request.duration = 0
          ∨ reservation.cleanupAfterUnixMs = 0
          ∨ reservation.request.faultType.requiresAdminReversal = false)
        "invalid node fault reservation"
      pure { lastSequence := reservation.sequence, active := some reservation }

def releaseFault (reservations : NodeFaultReservations) (sequence : Nat)
    : Except String NodeFaultReservations :=
  match reservations.active with
  | some active =>
    if active.sequence = sequence then .ok { reservations with active := none }
    else .error "node fault release does not match the current reservation"
  | none =>
    if sequence = reservations.lastSequence ∧ sequence ≠ 0 then .ok reservations
    else .error "node fault release does not match the current reservation"

end NodeFaultReservations

-- Membership

structure LogId where
  term : Nat
  index : Nat
deriving DecidableEq, Repr

/-- The voters, in one configuration or two joint ones, and the names of the nodes. -/
structure Membership where
  logId : Option LogId := none
  jointConfig : List (BTreeSet Nat) := []
  nodes : BTreeMap Nat String := ∅

def Membership.voterIds (membership : Membership) : BTreeSet Nat :=
  membership.jointConfig.foldl
    (fun voters config => config.toList.foldl (fun voters id => voters.insert id) voters) ∅

/-- A node's registry and Raft id: the djb2 hash of its name. -/
def raftIdFromName (name : String) : Nat :=
  let hash := name.toUTF8.data.toList.foldl (fun acc byte => (acc * 33 + byte.toNat) % u64Size)
    5381
  if hash = 0 then 1 else hash

-- The desired state

/-- How many released versions an app keeps to roll back to. -/
def rollbackTargetsPerApp : Nat := 10

structure RolloutFailure where
  /-- The fingerprint of the version that failed. -/
  fingerprint : String
  node : String
  reason : String
  atUnixMs : Nat
deriving DecidableEq, Repr

/-- An app's rollout record: the versions it can roll back to, oldest first, and the one whose
rollout failed. -/
structure AppRollouts where
  released : List AppSpec := []
  failed : Option RolloutFailure := none
deriving DecidableEq

/-- What GitOps wrote, and may therefore delete. -/
structure GitOpsOwnership where
  apps : BTreeSet AppId := ∅
  namespaces : BTreeSet String := ∅
  permissions : BTreeSet String := ∅
  policies : BTreeSet String := ∅

/-- Metadata of the image registry, and how often each node's garbage was collected. -/
structure RegistryState where
  catalog : ManifestCatalog := {}
  gcGenerations : BTreeMap Nat Nat := ∅

namespace RegistryState

def gcGeneration (registry : RegistryState) (nodeId : Nat) : Nat :=
  registry.gcGenerations[nodeId]?.getD 0

/-- Whether the publishing node's blobs were verified after its last collection. -/
def publicationIsCurrent (registry : RegistryState) (commit : ManifestCommit) : Bool :=
  commit.holderNodes.toList.all (fun node =>
    registry.gcGeneration node == commit.observedGcGeneration)

end RegistryState

structure DesiredState where
  apps : BTreeMap AppId AppSpec := ∅
  /-- The spec an app was declared with, where policies changed it. -/
  declaredApps : BTreeMap AppId AppSpec := ∅
  stoppedApps : BTreeSet AppId := ∅
  rollouts : BTreeMap AppId AppRollouts := ∅
  quotaBlocked : BTreeMap AppId QuotaError := ∅
  unschedulable : BTreeMap AppId Section := ∅
  /-- Replica counts set by the autoscaler, by the text of the app's identity. -/
  autoscaleOverrides : List (String × Nat) := []
  gitopsOwned : GitOpsOwnership := {}
  namespaces : BTreeMap String Section := ∅
  permissions : BTreeMap String Section := ∅
  policies : BTreeMap String Section := ∅
  policyGeneration : Nat := 0
  taskArrays : TaskArrays := {}
  nextBatchId : Nat := 1
  scheduling : BTreeMap AppId (List Placement) := ∅
  registry : RegistryState := {}
  endpoints : Endpoints := {}
  security : SecurityState := {}
  testLeases : BTreeMap String TestLease := ∅
  nodeFaultReservations : NodeFaultReservations := {}
  membership : Membership := {}
  lastApplied : Option LogId := none

/-- What the state machine relies on from outside its own logic. -/
structure Surroundings where
  platform : Platform
  /-- The repository of an image reference that parses. -/
  imageRepository : String → Option String
  /-- The fingerprint of a token's secret. -/
  tokenFingerprint : ApiToken → String
  /-- An app's version, its replica count and owner set aside. -/
  rolloutFingerprint : AppSpec → String
  /-- Check a configuration, given the namespaces that exist. -/
  validateAgainst : Config → List String → Except String Unit
  /-- Check that a certificate is signed by an issuer. -/
  signedBy : String → String → Except String Unit

-- Requests' answers

inductive Refusal where
  | because (reason : String)
  | endpoint (error : EndpointRefusal)
  | lease (error : LeaseError)
  | pickle (error : PickleError)
  | rotation (error : CaRotationError)
  | store (error : TaskArrayStoreError)
deriving DecidableEq, Repr

inductive CouncilResponse where
  | applied
  | serialAllocated (serial : Nat)
  | gcApproved (approved : List Digest)
  | refused (reason : Refusal)
  | joinTokenConsumed (serial : Nat)
  | nodeDecommissioned (retirement : NodeRetirement)
  | registryPublicationStale
  | endpointExecutionRetired (released : Bool)
  | apiTokensSwept (removed : List String)
  | policyGenerationMoved (current : Nat)
  | taskArrayRegistered (batchId : Nat)
  | taskArrayTicked (refused : List (Nat × TaskArrayStoreError))
deriving DecidableEq

/-- The answer to a request and the state after it; `error` refuses it and changes nothing. -/
abbrev Answered : Type := Except Refusal (CouncilResponse × DesiredState)

/-- Where a log entry stands: the last entry applied before it, and itself. -/
structure ApplyEntryPosition where
  previous : Option LogId
  current : Option LogId
deriving DecidableEq, Repr

def AppId.text (appId : AppId) : String :=
  appId.ns ++ "/" ++ appId.name

def imagePinDigest (image : String) : Option String :=
  ((rsplitOnce '@' image.toList).map (fun parts => String.ofList parts.2)).filter isDigestTag

namespace DesiredState

def refuseWhen (condition : Prop) [Decidable condition] (reason : String)
    : Except Refusal Unit :=
  Checks.refuseIf condition (.because reason)

variable (state : DesiredState)

def accept : Answered :=
  .ok (.applied, state)

/-- Every image digest an app, a rollback target or a job pins. -/
def pinnedImageDigests : BTreeSet String :=
  let targets := state.rollouts.valueList.flatMap (·.released)
  let apps := (state.apps.valueList ++ targets).flatMap AppSpec.imageReferences
  let jobs := state.taskArrays.jobs.definitions.valueList.filterMap
    (fun record => record.definition.template.image)
  let arrays := state.taskArrays.arrays.valueList.filterMap (fun record => record.template.image)
  ((apps ++ jobs ++ arrays).filterMap imagePinDigest).foldl
    (fun pinned digest => pinned.insert digest) ∅

def holds : LeasedResource → Bool
  | .app appId => state.apps.contains appId
  | .job jobId =>
    (state.taskArrays.jobs.definition jobId.ns jobId.name).isSome
      || (state.taskArrays.deploymentOwner jobId.name jobId.ns).isSome
  | .namespaced name => state.namespaces.contains name
  | .apiToken name _ => state.security.apiTokens.any (fun token => token.name == name)

def deploymentOwns (appId : AppId) : Bool :=
  (state.taskArrays.deploymentOwner appId.name appId.ns).isSome

def namespaceIsLeased (ns : String) : Bool :=
  state.testLeases.valueList.any (fun lease => lease.ns == ns)

end DesiredState

-- The registry

structure SchedulingDecision where
  appId : AppId
  placements : List Placement
deriving DecidableEq, Repr

namespace DesiredState

-- Placements

def placementOwners (lease : TestLease) (decision : SchedulingDecision)
    : BTreeSet LeasedPlacement :=
  decision.placements.foldl
    (fun owners placement => owners.insert ⟨decision.appId, placement.nodeId⟩) lease.placements

variable (state : DesiredState)

/-- Record that a leased app may run on the nodes of a decision. -/
def recordLeasedPlacements (decision : SchedulingDecision) : Except Refusal DesiredState := do
  match state.testLeases.toList.find? (fun entry =>
      entry.2.resources.contains (.app decision.appId)) with
  | none => throw (.because "leased scheduling requires an owner")
  | some (leaseId, lease) =>
    refuseWhen (lease.state ≠ .active ∨ decision.appId ∉ state.apps)
      "lease is cleaning or application was deleted"
    refuseWhen (decision.placements.any (fun placement => placement.nodeId.isEmpty) = true)
      "placement node is empty"
    refuseWhen ((placementOwners lease decision).size > maxLeasedPlacements)
      "lease placement history limit reached"
    pure { state with
      testLeases := state.testLeases.insert leaseId
        { lease with placements := placementOwners lease decision } }

def applySchedulingDecision (decision : SchedulingDecision) : Except Refusal DesiredState := do
  refuseWhen
    (decision.placements.any (fun placement => state.security.isRetired placement.nodeId) = true)
    "placement targets a retired node identity"
  let app := decision.appId.text
  refuseWhen (¬(decision.placements.map (·.ordinal)).Nodup)
    s!"two placements of {app} share an ordinal"
  let recorded ←
    if startsWith decision.appId.ns "rbtest-" then state.recordLeasedPlacements decision
    else pure state
  pure { recorded with
    scheduling := recorded.scheduling.insert decision.appId decision.placements }

def applyDecisions : List SchedulingDecision → List AppId → DesiredState
    → Except Refusal DesiredState
  | [], _, state => .ok state
  | decision :: rest, identities, state => do
      refuseWhen (decision.appId ∈ identities) "placement pass repeats an application"
      let next ← state.applySchedulingDecision decision
      applyDecisions rest (decision.appId :: identities) next

def schedulingDecisions (position expectedLogId : Option LogId)
    (decisions : List SchedulingDecision)
    : Answered := do
  refuseWhen (expectedLogId ≠ position) "admission revision changed"
  refuseWhen
    (decisions.length > 4096
      ∨ (decisions.map (fun decision => decision.placements.length)).sum > 131072)
    "placement pass exceeds admission limits"
  let next ← applyDecisions decisions [] state
  accept next

-- The image registry

def registryNodeRetired (nodeId : Nat) : Bool :=
  state.security.crl.retiredNodes.keys.any (fun name => raftIdFromName name == nodeId)

def withCatalog (catalog : ManifestCatalog) : DesiredState :=
  { state with registry := { state.registry with catalog } }

def manifestCommit (commit : ManifestCommit) : Answered := do
  if !state.registry.publicationIsCurrent commit then
    .ok (.registryPublicationStale, state)
  else
    refuseWhen (isTestRepository commit.manifest.repository = true)
      "test repositories require an active lease and writer receipt"
    refuseWhen
      (state.security.crl.retiredNodes.keys.any (fun name =>
        commit.manifest.pushedBy == raftIdFromName name
          || commit.holderNodes.contains (raftIdFromName name)) = true)
      "registry writer identity is retired"
    accept (state.withCatalog (state.registry.catalog.applyManifestCommit commit))

/-- Whether a copy's lease, or its absence, fits the repository. -/
def permitsCopy (copy : ImageCopyConfirmation) : Bool :=
  let reserved := isTestRepository copy.repository
  match copy.leaseId with
  | some leaseId =>
    reserved
      && state.registry.catalog.repositoryOwners[copy.repository]? == some leaseId
      && state.testLeases[leaseId]?.any (fun lease =>
        lease.permitsRegistryCopy copy.repository copy.nodeId copy.observedAtUnixMs)
  | none => !reserved && !state.registry.catalog.repositoryOwners.contains copy.repository

def confirmImageCopy (copy : ImageCopyConfirmation) : Answered := do
  refuseWhen (state.registryNodeRetired copy.nodeId = true) "registry writer identity is retired"
  if state.registry.gcGeneration copy.nodeId ≠ copy.observedGcGeneration then
    .ok (.registryPublicationStale, state)
  else
    refuseWhen (state.permitsCopy copy = false)
      "repository copy requires its active owner and writer receipt"
    match state.registry.catalog.addManifestHolder copy.repository copy.manifestDigest
        copy.nodeId with
    | none => throw (.because "repository manifest no longer exists")
    | some catalog => accept (state.withCatalog catalog)

/-- Deletions are arbitrated in log order; an approval closes the node's collection
generation. -/
def gcReport (report : GcReport) : Answered := do
  refuseWhen (state.registryNodeRetired report.nodeId = true)
    "registry writer identity is retired"
  let (approved, catalog) := state.registry.catalog.applyGcReport report
  if approved.isEmpty then .ok (.gcApproved approved, state)
  else
    let generation := state.registry.gcGeneration report.nodeId
    refuseWhen (generation + 1 ≥ u64Size) "registry GC generation exhausted"
    .ok (.gcApproved approved, { state with
      registry := {
        catalog
        gcGenerations := state.registry.gcGenerations.insert report.nodeId (generation + 1) } })

def expireManifest (expire : ExpireManifest) : Answered := do
  let catalog ← (state.registry.catalog.applyExpireManifest expire
    (state.pinnedImageDigests)).mapError .because
  accept (state.withCatalog catalog)

def attachSignature (attach : AttachSignature) : Answered := do
  let digest := attach.manifestDigest.text
  let (attached, catalog) := state.registry.catalog.applyAttachSignature attach
  refuseWhen (attached = false) s!"no manifest with digest {digest} in the catalogue"
  accept (state.withCatalog catalog)

end DesiredState

end Reliaburger
