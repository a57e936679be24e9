import Reliaburger.Council.Leases
import Reliaburger.Library.Runs

/-! How the council's state machine answers a request, and the log entries it applies. -/

namespace Reliaburger

open Checks

namespace DesiredState

-- Node faults

variable (state : DesiredState)

/-- Reserve a fault of a node, if a quorum is left without it. -/
def reserveNodeFault (reservation : NodeFaultReservation) (membershipLogId : Option LogId)
    (unavailableVoters : BTreeSet Nat)
    : Answered := do
  let voters := state.membership.voterIds
  refuseWhen
    (state.membership.logId ≠ membershipLogId ∨ state.membership.jointConfig.length ≠ 1
      ∨ voters.isEmpty = true)
    "node fault safety requires a stable current council membership"
  refuseWhen (reservation.request.targetNode.any state.security.isRetired = true)
    "node identity is retired"
  -- A drain only withdraws scheduler readiness; every other fault may cost a voter.
  refuseWhen
    (reservation.request.faultType ≠ .nodeDrain
      ∧ (unavailableVoters.toList.filter (fun id => voters.contains id)).length + 1
        > (voters.size - 1) / 2)
    "node fault would risk council quorum"
  let nodeFaultReservations ←
    (state.nodeFaultReservations.reserveFault reservation).mapError .because
  accept { state with nodeFaultReservations }

def releaseNodeFault (sequence : Nat) : Answered := do
  let nodeFaultReservations ←
    (state.nodeFaultReservations.releaseFault sequence).mapError .because
  accept { state with nodeFaultReservations }

-- Service discovery

def onEndpoints (changed : Except EndpointRefusal Endpoints) : Answered := do
  let endpoints ← changed.mapError .endpoint
  accept { state with endpoints }

/-- Retire an execution, and answer whether it may be released. -/
def retireEndpointExecution (nodeId : String) (execution : RuntimeExecution) : Answered := do
  let (released, endpoints) ← (state.endpoints.retireExecution state.security.isRetired nodeId
    execution).mapError .endpoint
  .ok (.endpointExecutionRetired released, { state with endpoints })

-- Decommissioning

def releaseLease (nodeId : String) (lease : TestLease) : TestLease :=
  { lease with
    repositories := lease.repositories.map (fun _ owners => owners.erase (raftIdFromName nodeId))
    placements := lease.placements.filter (fun owner => owner.nodeId != nodeId) }

def remainingVoters (nodeId : String) (voters : BTreeSet Nat) : Nat :=
  (voters.toList.filter (fun id => state.membership.nodes[id]?.any (fun name =>
    name != nodeId && !state.security.isRetired name))).length

/-- The obligations each lease had on the node, where there were any. -/
def releasedCounts (count : TestLease → Nat) : BTreeMap String Nat :=
  state.testLeases.filterMap (fun _ lease => if count lease > 0 then some (count lease) else none)

def retirementRecord (nodeId retiredBy reason : String) (retiredAtUnixMs : Nat)
    : NodeRetirement where
  nodeId
  retiredBy
  reason
  retiredAtUnixMs
  releasedPlacements := state.releasedCounts (fun lease =>
    lease.placements.toList.countP (fun owner => owner.nodeId == nodeId))
  releasedRegistryWriters := state.releasedCounts (fun lease =>
    lease.repositories.valueList.countP (fun owners => owners.contains (raftIdFromName nodeId)))
  releasedNodeFault := state.nodeFaultReservations.active.map (·.sequence)
  releasedEndpointConsumer := state.endpoints.consumers.contains nodeId

/-- Retire a node for good, with its endpoints and what leases have on it. -/
def decommissionNode (nodeId retiredBy reason : String) (retiredAtUnixMs : Nat)
    (membershipLogId : Option LogId)
    : Answered := do
  refuseWhen
    ((validateNodeId nodeId).toBool = false
      ∨ trim reason.toList = [] ∨ reason.utf8ByteSize > 1024
      ∨ retiredBy.isEmpty = true ∨ retiredBy.utf8ByteSize > 256
      ∨ retiredAtUnixMs = 0)
    "invalid node retirement record"
  match state.security.crl.retiredNodes[nodeId]? with
  | some retirement => .ok (.nodeDecommissioned retirement, state)
  | none =>
    refuseWhen (state.security.crl.retiredNodes.size ≥ maxRetiredNodes)
      "retired identity limit reached"
    refuseWhen
      (state.membership.logId ≠ membershipLogId ∨ state.membership.jointConfig.length > 1)
      "membership changed; retry decommissioning"
    refuseWhen
      (state.nodeFaultReservations.active.any (fun active =>
        active.request.targetNode != some nodeId) = true)
      "decommissioning waits for another node's fault reversal"
    refuseWhen
      (state.membership.jointConfig.any (fun voters =>
        !voters.isEmpty && state.remainingVoters nodeId voters < voters.size / 2 + 1) = true)
      "decommissioning would remove the remaining quorum; add replacement voters first"
    -- Discovery is retired first: its refusal must come before any lease changes.
    let endpoints ← (state.endpoints.decommission nodeId).mapError .endpoint
    let retirement := state.retirementRecord nodeId retiredBy reason retiredAtUnixMs
    let crl := state.security.crl
    .ok (.nodeDecommissioned retirement, { state with
      endpoints
      testLeases := state.testLeases.map (fun _ lease => releaseLease nodeId lease)
      scheduling := state.scheduling.map (fun _ placements =>
        placements.filter (fun placement => placement.nodeId != nodeId))
      registry := { state.registry with
        catalog := state.registry.catalog.removeNodeHoldings (raftIdFromName nodeId) }
      nodeFaultReservations := { state.nodeFaultReservations with active := none }
      security := { state.security with
        crl := { crl with
          retiredNodes := crl.retiredNodes.insert nodeId retirement
          version := crl.version + 1
          updatedAt := (retiredAtUnixMs : Int) * 10 ^ 6 } } })

end DesiredState

-- Requests

/-- A request behind a policy fence; only an app write may be there. -/
inductive FencedChange where
  | appSpec (appId : AppId) (spec : AppSpec)
  | testLeaseAppSpec (leaseId : String) (observedAtUnixMs : Nat) (appId : AppId) (spec : AppSpec)
  | gitOpsAppSpec (term : Nat) (appId : AppId) (spec : AppSpec)
  | other

/-- Requests to the council. `bookkeeping` stands for those that write only what no other request
reads: configuration values, GitOps progress, upgrades and builds. -/
inductive CouncilRequest where
  | spec (write : SpecWrite)
  | appStop (appId : AppId)
  | appRelease (appId : AppId)
  | gitOpsWrite (term : Nat) (change : Option SpecWrite)
  | policyFenced (generation : Nat) (change : FencedChange) (declared : Option AppSpec)
  | taskArray (write : TaskArrayWrite)
  | jobApplyCommit (operationId : String) (nowEpochSecs : Nat)
  | autoscaleOverride (appId : AppId) (replicas : Nat) (reason : String)
  | rolloutFailed (appId : AppId) (failure : RolloutFailure)
  | rolloutReleased (appId : AppId) (spec : AppSpec)
  | quotaBlocked (blocked : List (AppId × QuotaError))
  | unschedulable (apps : List (AppId × Section))
  | reserveNodeFault (reservation : NodeFaultReservation) (membershipLogId : Option LogId)
      (unavailableVoters : BTreeSet Nat)
  | releaseNodeFault (sequence : Nat)
  | schedulingDecision (decision : SchedulingDecision)
  | schedulingDecisions (expectedLogId : Option LogId) (decisions : List SchedulingDecision)
  | manifestCommit (commit : ManifestCommit)
  | updateLayerLocations
  | confirmImageCopy (copy : ImageCopyConfirmation)
  | gcReport (report : GcReport)
  | deleteTag (delete : DeleteTag)
  | expireManifest (expire : ExpireManifest)
  | attachSignature (attach : AttachSignature)
  | securityStateInit (security : SecurityState)
  | createJoinToken (token : JoinToken)
  | consumeJoinToken (tokenHash : String)
  | consumeJoinTokenForIssue (tokenHash : String)
  | allocateSerial
  | allocateNodeSerial (nodeId : String)
  | createApiToken (token : ApiToken)
  | revokeApiToken (name : String)
  | rotateApiToken (rotation : TokenRotation)
  | sweepExpiredApiTokens (nowUnixMs : Nat)
  | rotateSecretKey (scope : AgeKeyScope) (newKeypair : AgeKeypair)
      (resealed : List ResealedSecret)
  | finalizeSecretRotation (scope : AgeKeyScope)
  | revokeCertificate (entry : CrlEntry)
  | caRotationBegin (role : CaRole) (ca : CertificateAuthority)
  | caRotationPrepare (role : CaRole) (generation : Nat) (csrDer privateKeyWrapped : String)
  | acknowledgeNodeTrust (nodeId : String) (generation : Nat)
  | caRotationFinalize (role : CaRole) (nowUnixMs : Nat)
  | registerEndpointConsumer (nodeId : String)
  | acknowledgeEndpointWithdrawal (nodeId : String) (generation : Nat)
  | dischargeEndpointConsumer (nodeId : String)
  | retireEndpointExecution (nodeId : String) (execution : RuntimeExecution)
  | publishEndpoints (expectedGeneration : Nat) (catalog : EndpointCatalog)
  | testLeaseCreate (lease : TestLease)
  | testLeaseRegistryWriter (leaseId repository : String) (nodeId : Nat) (ownerId : Option String)
      (observedAtUnixMs : Nat)
  | testLeaseManifestCommit (leaseId : String) (observedAtUnixMs : Nat) (commit : ManifestCommit)
  | testLeaseWorkloadsRetired (leaseId : String)
  | testLeaseRegistryRetired (leaseId repository : String) (nodeId : Nat)
  | testLeaseJobs (leaseId : String) (observedAtUnixMs : Nat) (jobs : List AppId)
  | testLeaseAppSpec (leaseId : String) (observedAtUnixMs : Nat) (appId : AppId) (spec : AppSpec)
  | testLeaseNamespaceSpec (leaseId : String) (observedAtUnixMs : Nat) (name : String)
      (spec : Section)
  | testLeaseApiToken (leaseId ownerId : String) (observedAtUnixMs : Nat) (token : ApiToken)
  | testLeaseRevokeApiToken (leaseId name fingerprint : String)
  | testLeaseRenew (leaseId ownerId : String) (renewedAtUnixMs expiresAtUnixMs : Nat)
  | testLeaseBeginCleanup (leaseId : String)
  | testLeasePlacementRetired (leaseId : String) (placement : LeasedPlacement)
  | testLeaseFinishCleanup (leaseId : String)
  | testLeaseCleanupFailed (leaseId reason : String)
  | testLeaseAppDelete (leaseId : String) (appId : AppId)
  | testLeaseNamespaceDelete (leaseId name : String)
  | decommissionNode (nodeId retiredBy reason : String) (retiredAtUnixMs : Nat)
      (membershipLogId : Option LogId)
  | bookkeeping

namespace FencedChange

def app : FencedChange → Option AppId
  | .appSpec appId _ | .testLeaseAppSpec _ _ appId _ | .gitOpsAppSpec _ appId _ => some appId
  | .other => none

end FencedChange

namespace DesiredState

def fencedChange (S : Surroundings) (state : DesiredState) (position : ApplyEntryPosition)
    : FencedChange → Answered
  | .appSpec appId spec => state.appSpec S appId spec
  | .testLeaseAppSpec leaseId observedAtUnixMs appId spec =>
    state.testLeaseAppSpec S leaseId observedAtUnixMs appId spec
  | .gitOpsAppSpec term appId spec =>
    state.gitOpsWrite S position term (some (.appSpec appId spec))
  | .other => .error (.because "a policy fence carries only an app write")

def declare (declaredApps : BTreeMap AppId AppSpec) (appId : AppId) : Option AppSpec
    → BTreeMap AppId AppSpec
  | some declared => declaredApps.insert appId declared
  | none => declaredApps.erase appId

/-- Apply a change only while the policies are those it was checked against. -/
def policyFenced (S : Surroundings) (state : DesiredState) (position : ApplyEntryPosition)
    (generation : Nat) (change : FencedChange) (declared : Option AppSpec)
    : Answered := do
  match change.app with
  | none => throw (.because "a policy fence carries only an app write")
  | some appId =>
    if generation ≠ state.policyGeneration then
      pure (.policyGenerationMoved state.policyGeneration, state)
    else
      let (answer, next) ← state.fencedChange S position change
      pure (answer, { next with declaredApps := declare next.declaredApps appId declared })

/-- What one request does. -/
def handle (S : Surroundings) (state : DesiredState) (position : ApplyEntryPosition)
    : CouncilRequest → Answered
  | .spec write => state.specWrite S write
  | .appStop appId => state.appStop appId
  | .appRelease appId => state.appRelease appId
  | .gitOpsWrite term change => state.gitOpsWrite S position term change
  | .policyFenced generation change declared =>
    state.policyFenced S position generation change declared
  | .taskArray write => state.taskArray S write
  | .jobApplyCommit operationId nowEpochSecs => state.jobApplyCommit S operationId nowEpochSecs
  | .autoscaleOverride appId replicas _ => state.autoscaleOverride appId replicas
  | .rolloutFailed appId failure => state.rolloutFailed S appId failure
  | .rolloutReleased appId spec => state.rolloutReleased S appId spec
  | .quotaBlocked blocked => accept { state with quotaBlocked := state.notesOfApps blocked }
  | .unschedulable apps => accept { state with unschedulable := state.notesOfApps apps }
  | .reserveNodeFault reservation membershipLogId unavailableVoters =>
    state.reserveNodeFault reservation membershipLogId unavailableVoters
  | .releaseNodeFault sequence => state.releaseNodeFault sequence
  | .schedulingDecision _ =>
    .error (.because "placement requires a guarded whole-pass admission")
  | .schedulingDecisions expectedLogId decisions =>
    state.schedulingDecisions position.previous expectedLogId decisions
  | .manifestCommit commit => state.manifestCommit commit
  | .updateLayerLocations =>
    .error (.because "holder replacement requires storage-node copy confirmation")
  | .confirmImageCopy copy => state.confirmImageCopy copy
  | .gcReport report => state.gcReport report
  | .deleteTag delete =>
    accept (state.withCatalog (state.registry.catalog.applyDeleteTag delete).2)
  | .expireManifest expire => state.expireManifest expire
  | .attachSignature attach => state.attachSignature attach
  | .securityStateInit security => state.securityStateInit security
  | .createJoinToken token => state.createJoinToken token
  | .consumeJoinToken tokenHash => state.consumeJoinToken tokenHash
  | .consumeJoinTokenForIssue tokenHash => state.consumeJoinTokenForIssue tokenHash
  | .allocateSerial => state.allocateSerial
  | .allocateNodeSerial nodeId => state.allocateNodeSerial nodeId
  | .createApiToken token => state.createApiToken token
  | .revokeApiToken name => state.revokeApiToken name
  | .rotateApiToken rotation => state.rotateApiToken rotation
  | .sweepExpiredApiTokens nowUnixMs => state.sweepExpiredApiTokens nowUnixMs
  | .rotateSecretKey scope newKeypair resealed =>
    state.rotateSecretKey scope newKeypair resealed
  | .finalizeSecretRotation scope => state.finalizeSecretRotation scope
  | .revokeCertificate entry => state.revokeCertificate entry
  | .caRotationBegin role ca => state.caRotationBegin S role ca
  | .caRotationPrepare role generation csrDer privateKeyWrapped =>
    state.caRotationPrepare role generation csrDer privateKeyWrapped
  | .acknowledgeNodeTrust nodeId generation => state.acknowledgeNodeTrust nodeId generation
  | .caRotationFinalize role nowUnixMs => state.caRotationFinalize role nowUnixMs
  | .registerEndpointConsumer nodeId =>
    state.onEndpoints (state.endpoints.registerConsumer state.security.isRetired nodeId)
  | .acknowledgeEndpointWithdrawal nodeId generation =>
    state.onEndpoints (state.endpoints.acknowledgeWithdrawal state.security.isRetired nodeId
      generation)
  | .dischargeEndpointConsumer nodeId =>
    state.onEndpoints (state.endpoints.dischargeConsumer nodeId)
  | .retireEndpointExecution nodeId execution => state.retireEndpointExecution nodeId execution
  | .publishEndpoints expectedGeneration catalog =>
    state.onEndpoints (state.endpoints.publish state.security.isRetired expectedGeneration
      catalog)
  | .testLeaseCreate lease => state.testLeaseCreate lease
  | .testLeaseRegistryWriter leaseId repository nodeId ownerId observedAtUnixMs =>
    state.testLeaseRegistryWriter leaseId repository nodeId ownerId observedAtUnixMs
  | .testLeaseManifestCommit leaseId observedAtUnixMs commit =>
    state.testLeaseManifestCommit leaseId observedAtUnixMs commit
  | .testLeaseWorkloadsRetired leaseId => state.testLeaseWorkloadsRetired leaseId
  | .testLeaseRegistryRetired leaseId repository nodeId =>
    state.testLeaseRegistryRetired leaseId repository nodeId
  | .testLeaseJobs leaseId observedAtUnixMs jobs =>
    state.testLeaseJobs leaseId observedAtUnixMs jobs
  | .testLeaseAppSpec leaseId observedAtUnixMs appId spec =>
    state.testLeaseAppSpec S leaseId observedAtUnixMs appId spec
  | .testLeaseNamespaceSpec leaseId observedAtUnixMs name spec =>
    state.testLeaseNamespaceSpec leaseId observedAtUnixMs name spec
  | .testLeaseApiToken leaseId ownerId observedAtUnixMs token =>
    state.testLeaseApiToken S leaseId ownerId observedAtUnixMs token
  | .testLeaseRevokeApiToken leaseId name fingerprint =>
    state.testLeaseRevokeApiToken S leaseId name fingerprint
  | .testLeaseRenew leaseId ownerId renewedAtUnixMs expiresAtUnixMs =>
    state.testLeaseRenew leaseId ownerId renewedAtUnixMs expiresAtUnixMs
  | .testLeaseBeginCleanup leaseId => state.testLeaseBeginCleanup leaseId
  | .testLeasePlacementRetired leaseId placement =>
    state.testLeasePlacementRetired leaseId placement
  | .testLeaseFinishCleanup leaseId => state.testLeaseFinishCleanup leaseId
  | .testLeaseCleanupFailed leaseId reason => state.testLeaseCleanupFailed leaseId reason
  | .testLeaseAppDelete leaseId appId => state.testLeaseAppDelete leaseId appId
  | .testLeaseNamespaceDelete leaseId name => state.testLeaseNamespaceDelete leaseId name
  | .decommissionNode nodeId retiredBy reason retiredAtUnixMs membershipLogId =>
    state.decommissionNode nodeId retiredBy reason retiredAtUnixMs membershipLogId
  | .bookkeeping => accept state

end DesiredState

-- Log entries

inductive CouncilPayload where
  | blank
  | request (request : CouncilRequest)
  | membership (jointConfig : List (BTreeSet Nat)) (nodes : BTreeMap Nat String)

/-- An entry of the log. -/
structure CouncilEntry where
  logId : LogId
  payload : CouncilPayload

namespace DesiredState

/-- Apply an entry; a refused request leaves only its position behind. -/
def applyEntry (S : Surroundings) (state : DesiredState) (entry : CouncilEntry)
    : CouncilResponse × DesiredState :=
  let reached := { state with lastApplied := some entry.logId }
  match entry.payload with
  | .blank => (.applied, reached)
  | .request request =>
    match reached.handle S ⟨state.lastApplied, some entry.logId⟩ request with
    | .ok answered => answered
    | .error reason => (.refused reason, reached)
  | .membership jointConfig nodes =>
    (.applied, { reached with membership := { logId := some entry.logId, jointConfig, nodes } })

def step (S : Surroundings) (state : DesiredState) (entry : CouncilEntry) : DesiredState :=
  (state.applyEntry S entry).2

/-- The state after a log. -/
def run (S : Surroundings) (state : DesiredState) (entries : List CouncilEntry) : DesiredState :=
  Runs.run (step S) state entries

end DesiredState

/-- Surroundings in which every configuration and signature passes and texts stand for
themselves. -/
def plainSurroundings : Surroundings where
  platform := {
    templateJson := fun _ => ""
    definitionJson := fun _ => ""
    configJson := fun _ => ""
    manifestJson := fun name ns _ => name ++ ns
    jobsJson := fun _ => ""
    generationsJson := fun _ node _ => node
    sha256 := id
    validateEgressEntry := fun _ => .ok ()
    validateApp := fun _ _ => .ok ()
    validateNamespace := fun _ _ => .ok ()
    validatePermission := fun _ _ => .ok ()
    validateBuild := fun _ _ => .ok ()
    checkPolicy := fun _ _ => .ok () }
  imageRepository := some
  tokenFingerprint := fun token => token.tokenHash
  rolloutFingerprint := fun spec => spec.body
  validateAgainst := fun _ _ => .ok ()
  signedBy := fun _ _ => .ok ()

/-- Requests as log entries of the first term, from an index on. -/
def requestEntries : Nat → List CouncilRequest → List CouncilEntry
  | _, [] => []
  | index, request :: rest =>
    ⟨⟨1, index⟩, .request request⟩ :: requestEntries (index + 1) rest

end Reliaburger
