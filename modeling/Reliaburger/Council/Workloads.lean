import Reliaburger.Council.State

/-! What should run: writes of apps, namespaces, permissions and policies, by hand, by GitOps or
behind a policy fence, and what the leader records about the apps.
-/

namespace Reliaburger

open Checks

inductive SpecWrite where
  | appSpec (appId : AppId) (spec : AppSpec)
  | appDelete (appId : AppId)
  | namespaceSpec (name : String) (spec : Section)
  | namespaceDelete (name : String)
  | permissionSpec (name : String) (spec : Section)
  | permissionDelete (name : String)
  | policySpec (name : String) (spec : Section)
  | policyDelete (name : String)

def configToDesiredWrites (config : Config) : List SpecWrite :=
  config.namespaces.toList.map (fun entry => .namespaceSpec entry.1 entry.2)
    ++ config.permission.toList.map (fun entry => .permissionSpec entry.1 entry.2)
    ++ config.policy.toList.map (fun entry => .policySpec entry.1 entry.2)
    ++ config.app.toList.map (fun entry => .appSpec ⟨entry.1, entry.2.namespace⟩ entry.2)

-- Seals

/-- The name of a stored value: `namespace/app/KEY`. -/
def sealKey (appId : AppId) (envKey : String) : String :=
  appId.text ++ "/" ++ envKey

def AppSpec.encryptedKeys (spec : AppSpec) : List String :=
  (spec.env.toList.filter (fun entry => entry.2.isEncrypted)).map (·.1)

namespace SecurityState

/-- The scope whose key seals an app's secrets: its namespace's when it has a key. -/
def effectiveSecretScope (security : SecurityState) (ns : String) : AgeKeyScope :=
  if security.ageKeypairs.any (fun keypair => keypair.scope == .namespaced ns) then .namespaced ns
  else .clusterWide

def withoutSeals (security : SecurityState) (appId : AppId) : BTreeMap String SecretSeal :=
  security.secretSeals.filter (fun key _ => !startsWith key (appId.text ++ "/"))

/-- Record the active generation for each encrypted value of a spec, instead of what was recorded
for the app before. Without a key nothing is recorded. -/
def recordSecretSeals (security : SecurityState) (appId : AppId) (spec : AppSpec)
    : SecurityState :=
  let scope := security.effectiveSecretScope appId.ns
  { security with
    secretSeals :=
      match security.activeAgeKeypair scope with
      | none => security.withoutSeals appId
      | some keypair =>
        spec.encryptedKeys.foldl
          (fun seals key => seals.insert (sealKey appId key) ⟨scope, keypair.generation⟩)
          (security.withoutSeals appId) }

end SecurityState

-- Apps

def clampToBounds (replicas : Nat) (autoscale : AutoscaleSpec) : Nat :=
  min (max replicas autoscale.min) autoscale.max

def AppSpec.withoutOwner (spec : AppSpec) : AppSpec :=
  { spec with owner := none }

namespace DesiredState

variable (state : DesiredState)

/-- The state without an app and everything kept for it. -/
def withoutApp (appId : AppId) : DesiredState :=
  { state with
    apps := state.apps.erase appId
    declaredApps := state.declaredApps.erase appId
    stoppedApps := state.stoppedApps.erase appId
    rollouts := state.rollouts.erase appId
    scheduling := state.scheduling.erase appId
    quotaBlocked := state.quotaBlocked.erase appId
    unschedulable := state.unschedulable.erase appId
    gitopsOwned := { state.gitopsOwned with apps := state.gitopsOwned.apps.erase appId }
    autoscaleOverrides := state.autoscaleOverrides.filter (fun entry => entry.1 != appId.text)
    security := { state.security with secretSeals := state.security.withoutSeals appId } }

/-- Remove an app, unless an outstanding deployment owns it. -/
def removeApp (appId : AppId) : Answered := do
  refuseWhen (state.deploymentOwns appId = true) "an outstanding job operation owns this app"
  accept (state.withoutApp appId)

/-- The overrides after an app was applied: its own goes when the replica baseline or the
`[autoscale]` block goes, and is clamped otherwise. -/
def overridesAfter (appId : AppId) (spec : AppSpec) : List (String × Nat) :=
  let others := state.autoscaleOverrides.filter (fun entry => entry.1 != appId.text)
  let kept :=
    if state.apps[appId]?.any (fun old => old.replicas != spec.replicas) then others
    else state.autoscaleOverrides
  match spec.autoscale with
  | none => kept.filter (fun entry => entry.1 != appId.text)
  | some autoscale =>
    kept.map (fun entry =>
      if entry.1 = appId.text then (entry.1, clampToBounds entry.2 autoscale) else entry)

/-- Store an app's spec. The same spec again keeps how it was declared and its failed rollout. -/
def applyAppSpec (appId : AppId) (spec : AppSpec) : DesiredState :=
  let identical := state.apps[appId]?.any (fun old => old.withoutOwner = spec.withoutOwner)
  { state with
    autoscaleOverrides := state.overridesAfter appId spec
    gitopsOwned :=
      if spec.owner.isSome then
        { state.gitopsOwned with apps := state.gitopsOwned.apps.erase appId }
      else state.gitopsOwned
    apps := state.apps.insert appId spec
    declaredApps := if identical then state.declaredApps else state.declaredApps.erase appId
    rollouts :=
      if identical then state.rollouts
      else
        match state.rollouts[appId]? with
        | some rollouts => state.rollouts.insert appId { rollouts with failed := none }
        | none => state.rollouts
    stoppedApps := state.stoppedApps.erase appId
    security := state.security.recordSecretSeals appId spec }

/-- Why an app write must not apply over the app's stored owner. -/
def ownerConflict (appId : AppId) (spec : AppSpec) : Option String :=
  match state.apps[appId]?.bind (·.owner) with
  | none => none
  | some stored =>
    if spec.owner = some stored then none
    else some ("app " ++ appId.text ++ " is owned by " ++ quoted stored
      ++ "; a write must keep that owner until the app is released")

def checkOwner (appId : AppId) (spec : AppSpec) : Except Refusal Unit :=
  match state.ownerConflict appId spec with
  | some reason => .error (.because reason)
  | none => .ok ()

def appSpec (S : Surroundings) (state : DesiredState) (appId : AppId) (spec : AppSpec)
    : Answered := do
  refuseWhen (Machine.jobIdentityReserved state.taskArrays appId.ns appId.name = true)
    "identity belongs to a job definition or retained run"
  refuseWhen (state.deploymentOwns appId = true) "an outstanding job deployment owns this app"
  refuseWhen (validTestNamespace appId.ns = true)
    "test lease namespace requires a leased app write"
  (authoriseImageReferences (spec.imageReferences.filterMap S.imageRepository) none).mapError .lease
  state.checkOwner appId spec
  accept (state.applyAppSpec appId spec)

def appStop (appId : AppId) : Answered := do
  let app := appId.text
  refuseWhen (state.deploymentOwns appId = true) "an outstanding job operation owns this app"
  refuseWhen (appId ∉ state.apps) s!"app {app} is not deployed"
  accept { state with stoppedApps := state.stoppedApps.insert appId }

def appDelete (appId : AppId) : Answered := do
  let app := appId.text
  refuseWhen (state.namespaceIsLeased appId.ns = true)
    s!"app {app} belongs to a test lease; only the lease's cleanup deletes it"
  state.removeApp appId

def appRelease (appId : AppId) : Answered := do
  let app := appId.text
  match state.apps[appId]? with
  | none => throw (.because s!"app {app} is not deployed")
  | some spec =>
    refuseWhen (spec.owner = none) s!"app {app} has no owner to release"
    accept { state with apps := state.apps.insert appId spec.withoutOwner }

-- Namespaces, permissions and policies

def namespaceSpec (name : String) (spec : Section) : Answered := do
  refuseWhen (validTestNamespace name = true)
    "test lease namespace requires a leased namespace write"
  accept { state with namespaces := state.namespaces.insert name spec }

def removeNamespace (name : String) : DesiredState :=
  { state with
    namespaces := state.namespaces.erase name
    gitopsOwned := { state.gitopsOwned with
      namespaces := state.gitopsOwned.namespaces.erase name } }

def namespaceDelete (name : String) : Answered := do
  refuseWhen (state.namespaceIsLeased name = true)
    s!"namespace {name} belongs to a test lease; only the lease's cleanup deletes it"
  accept (state.removeNamespace name)

def permissionDelete (name : String) : Answered :=
  accept { state with
    permissions := state.permissions.erase name
    gitopsOwned := { state.gitopsOwned with
      permissions := state.gitopsOwned.permissions.erase name } }

def nextPolicyGeneration : Nat :=
  min (state.policyGeneration + 1) (u64Size - 1)

def policySpec (name : String) (spec : Section) : Answered :=
  accept { state with
    policies := state.policies.insert name spec
    policyGeneration := state.nextPolicyGeneration }

def policyDelete (name : String) : Answered := do
  refuseWhen (name ∉ state.policies) s!"there is no policy named {name}"
  accept { state with
    policies := state.policies.erase name
    gitopsOwned := { state.gitopsOwned with
      policies := state.gitopsOwned.policies.erase name }
    policyGeneration := state.nextPolicyGeneration }

def specWrite (S : Surroundings) (state : DesiredState) : SpecWrite → Answered
  | .appSpec appId spec => state.appSpec S appId spec
  | .appDelete appId => state.appDelete appId
  | .namespaceSpec name spec => state.namespaceSpec name spec
  | .namespaceDelete name => state.namespaceDelete name
  | .permissionSpec name spec =>
    accept { state with permissions := state.permissions.insert name spec }
  | .permissionDelete name => state.permissionDelete name
  | .policySpec name spec => state.policySpec name spec
  | .policyDelete name => state.policyDelete name

/-- Apply writes in order, up to the first that is refused. -/
def stageWrites (S : Surroundings) : List SpecWrite → DesiredState → Except Refusal DesiredState
  | [], state => .ok state
  | write :: rest, state => do
      let (_, next) ← state.specWrite S write
      stageWrites S rest next

-- GitOps

/-- What a write would delete although GitOps did not write it. -/
def unownedDelete : SpecWrite → Option String
  | .appDelete appId =>
    if appId ∈ state.gitopsOwned.apps then none else some ("app " ++ appId.text)
  | .namespaceDelete name =>
    if name ∈ state.gitopsOwned.namespaces then none else some ("namespace " ++ name)
  | .permissionDelete name =>
    if name ∈ state.gitopsOwned.permissions then none else some ("permission " ++ name)
  | .policyDelete name =>
    if name ∈ state.gitopsOwned.policies then none else some ("policy " ++ name)
  | _ => none

/-- What GitOps owns after it wrote something; deletes forget it themselves. -/
def ownWritten (owned : GitOpsOwnership) : SpecWrite → GitOpsOwnership
  | .appSpec appId _ => { owned with apps := owned.apps.insert appId }
  | .namespaceSpec name _ => { owned with namespaces := owned.namespaces.insert name }
  | .permissionSpec name _ => { owned with permissions := owned.permissions.insert name }
  | .policySpec name _ => { owned with policies := owned.policies.insert name }
  | _ => owned

/-- The app of a write that declares an owner, which only a controller may do. -/
def claimedApp : SpecWrite → Option AppId
  | .appSpec appId spec => if spec.owner.isSome then some appId else none
  | _ => none

/-- Apply a GitOps write and record what GitOps owns. `change` is `none` for a request that
GitOps may not carry. -/
def gitOpsWrite (S : Surroundings) (state : DesiredState) (position : ApplyEntryPosition)
    (term : Nat) (change : Option SpecWrite)
    : Answered := do
  let wrote := (position.current.map (fun id => toString id.term)).getD "unknown"
  refuseWhen (position.current.map (·.term) ≠ some term)
    s!"the GitOps sync read desired state in term {term} but wrote in term {wrote}; leadership changed, so the sync is abandoned"
  match change with
  | none =>
    throw (.because
      "a GitOps write carries only app, namespace, permission and policy changes")
  | some change =>
    match claimedApp change with
    | some appId =>
      let app := appId.text
      throw (.because s!"app {app} declares an owner; a controller claims its apps with its own token, so git can't declare one")
    | none =>
      match state.unownedDelete change with
      | some resource =>
        throw (.because s!"GitOps didn't write {resource}, so it won't delete it")
      | none =>
        let (answer, next) ← state.specWrite S change
        pure (answer, { next with gitopsOwned := ownWritten next.gitopsOwned change })

-- Rollouts, autoscaling and the leader's notes

end DesiredState

namespace AppRollouts

def failedFor (rollouts : AppRollouts) (fingerprint : String) : Option RolloutFailure :=
  rollouts.failed.filter (fun failure => failure.fingerprint == fingerprint)

/-- Record a version as the newest that rolled out everywhere. -/
def release (S : Surroundings) (rollouts : AppRollouts) (spec : AppSpec) : AppRollouts :=
  let released := rollouts.released.filter (fun old =>
    S.rolloutFingerprint old != S.rolloutFingerprint spec) ++ [spec]
  { rollouts with released := released.drop (released.length - rollbackTargetsPerApp) }

end AppRollouts

namespace DesiredState

/-- Mark the current version of an app as failed. A version that already ran everywhere is not,
though its record is created. -/
def rolloutFailed (S : Surroundings) (state : DesiredState) (appId : AppId)
    (failure : RolloutFailure)
    : Answered := do
  let app := appId.text
  refuseWhen (state.apps[appId]?.map S.rolloutFingerprint ≠ some failure.fingerprint)
    s!"the failed rollout is not of {app}'s current spec; nothing to mark"
  let rollouts := state.rollouts[appId]?.getD {}
  if rollouts.released.getLast?.map S.rolloutFingerprint = some failure.fingerprint then
    pure (.refused (.because s!"{app}'s spec already rolled out on every node; a node's failed redeploy of it is not a rollout failure"),
      { state with rollouts := state.rollouts.insert appId rollouts })
  else
    let marked :=
      if (rollouts.failedFor failure.fingerprint).isNone then
        { rollouts with
          failed := some { failure with reason := String.ofList (failure.reason.toList.take 512) } }
      else rollouts
    accept { state with rollouts := state.rollouts.insert appId marked }

def rolloutReleased (S : Surroundings) (state : DesiredState) (appId : AppId) (spec : AppSpec)
    : Answered := do
  let app := appId.text
  refuseWhen (state.apps[appId]?.map S.rolloutFingerprint ≠ some (S.rolloutFingerprint spec))
    s!"the released spec is not {app}'s current spec; not a rollback target"
  let rollouts := state.rollouts[appId]?.getD {}
  let cleared :=
    if (rollouts.failedFor (S.rolloutFingerprint spec)).isSome then
      { rollouts with failed := none }
    else rollouts
  accept { state with rollouts := state.rollouts.insert appId (cleared.release S spec) }

def setOverride (overrides : List (String × Nat)) (key : String) (replicas : Nat)
    : List (String × Nat) :=
  Rows.changeOrPush (fun entry => entry.1 == key) (fun entry => (entry.1, replicas))
    (key, replicas) overrides

def autoscaleOverride (state : DesiredState) (appId : AppId) (replicas : Nat) : Answered := do
  let app := appId.text
  match state.apps[appId]?.bind (·.autoscale) with
  | none => throw (.because s!"app {app} doesn't autoscale")
  | some autoscale =>
    accept { state with
      autoscaleOverrides := setOverride state.autoscaleOverrides app
        (clampToBounds replicas autoscale) }

def notesOfApps {Note : Type} (state : DesiredState) (notes : List (AppId × Note))
    : BTreeMap AppId Note :=
  (notes.filter (fun note => state.apps.contains note.1)).foldl
    (fun kept note => kept.insert note.1 note.2) ∅

end DesiredState

-- The shared counter

def preflightIds (nextBatchId count : Nat) : Except Refusal Unit :=
  refuseIf (count ≠ 0 ∧ max nextBatchId 1 + count ≥ u64Size) (.because "batch id exhausted")

/-- The ids that a counter hands out; an exhausted one repeats its last. -/
def batchIdSupply (nextBatchId count : Nat) : Nat :=
  min (max nextBatchId 1 + count) (u64Size - 1)

def advanceIds (nextBatchId count : Nat) : Nat :=
  if count = 0 then nextBatchId else batchIdSupply nextBatchId count

namespace TaskArrays

def idsTaken (called : Called TaskArrayApplied) : Except TaskArrayStoreError Nat :=
  match called with
  | (.error refused, _) => .error refused
  | (.ok _, machine) => .ok machine.allocated

/-- The ids needed by this exact write; a retry and a skipped occurrence need none. -/
def registrationIds (P : Platform) (store : TaskArrays) (write : TaskArrayWrite)
    : Except TaskArrayStoreError Nat :=
  match write with
  | .registerManifest name ns requestId cohorts _ =>
    match Machine.manifestReplay P store name ns requestId cohorts with
    | .error refused => .error refused
    | .ok (some _) => .ok 0
    | .ok none => .ok (cohorts.length + 1)
  | .registerJobs .. | .deployBegin .. | .deployCommitted .. | .deployCancel ..
  | .deployRelease .. =>
    idsTaken (({ store } : Machine).applyDeployment P (Machine.previewIds store) write)
  | .job write =>
    if store.supersedes write then .ok 0
    else idsTaken (({ store } : Machine).applyJob P (Machine.previewIds store) write)
  | .register .. => .ok 1
  | _ => .ok 0

/-- The ids to keep free: for a new deployment, those of all its stages. -/
def plannedIds (P : Platform) (store : TaskArrays) (write : TaskArrayWrite)
    : Except TaskArrayStoreError Nat := do
  let actual ← store.registrationIds P write
  match write with
  | .deployBegin operationId config _ =>
    if store.deployments.contains operationId then pure actual
    else
      pure (max (config.job.valueList.countP (fun spec => spec.schedule.isNone)) actual)
  | _ => pure actual

end TaskArrays

-- Job writes

namespace DesiredState

/-- A job in a test namespace needs an active lease that owns it. -/
def checkLeasedJob (state : DesiredState) (leasedAt : Nat) (job : String × JobSpec)
    : Except Refusal Unit :=
  let jobId : AppId := ⟨job.1, job.2.namespace⟩
  refuseWhen
    (validTestNamespace jobId.ns = true
      ∧ state.testLeases.valueList.any (fun lease =>
        lease.resources.contains (.job jobId) && lease.isActiveAt leasedAt) = false)
    "a job in a test lease namespace needs an active job lease that owns it"

/-- A job may not take the identity of an app, stored or in the same configuration. -/
def checkJobIdentity (state : DesiredState) (config : Config) (job : String × JobSpec)
    : Except Refusal Unit :=
  refuseWhen
    (state.apps.contains (⟨job.1, job.2.namespace⟩ : AppId)
      || config.app[job.1]?.any (fun app => app.namespace == job.2.namespace))
    "job identity belongs to an app"

/-- A configuration without the apps that the deployment itself owns. -/
def previewConfig (state : DesiredState) (operationId : String) (config : Config) : Config :=
  { config with
    app := config.app.filter (fun name spec =>
      state.taskArrays.deploymentOwner name spec.namespace != some operationId) }

def checkJobWrite (S : Surroundings) (state : DesiredState) : TaskArrayWrite → Except Refusal Unit
  | .deployBegin operationId config nowEpochSecs => do
      let leasedAt := min (nowEpochSecs * 1000) (u64Size - 1)
      checkAll (state.checkLeasedJob leasedAt) config.job.toList
      (S.validateAgainst config state.namespaces.keys).mapError .because
      checkAll (state.checkJobIdentity config) config.job.toList
      let _ ← stageWrites S (configToDesiredWrites (state.previewConfig operationId config)) state
      pure ()
  | .job write =>
    refuseWhen ((⟨write.name, write.ns⟩ : AppId) ∈ state.apps)
      "identity belongs to an app; delete it before changing workload kind"
  | _ => .ok ()

def jobAnswer : TaskArrayApplied → CouncilResponse
  | .registered batchId => .taskArrayRegistered batchId
  | .ticked refused => .taskArrayTicked refused
  | _ => .applied

/-- Apply a job write. A refused one keeps what the store made of it, and the ids it took. -/
def taskArray (S : Surroundings) (state : DesiredState) (write : TaskArrayWrite) : Answered := do
  state.checkJobWrite S write
  let ids ← (state.taskArrays.plannedIds S.platform write).mapError .store
  preflightIds state.nextBatchId ids
  let (answer, machine) := ({ store := state.taskArrays } : Machine).apply S.platform
    (batchIdSupply state.nextBatchId) write
  let next := { state with
    taskArrays := machine.store
    nextBatchId := advanceIds state.nextBatchId machine.allocated }
  match answer with
  | .ok applied => pure (jobAnswer applied, next)
  | .error refused => pure (.refused (.store refused), next)

/-- Publish a deployment's apps and admit its jobs in one step, or neither. -/
def jobApplyCommit (S : Surroundings) (state : DesiredState) (operationId : String)
    (nowEpochSecs : Nat)
    : Answered := do
  match state.taskArrays.deployments[operationId]? with
  | none => throw (.because "unknown deployment")
  | some record =>
    refuseWhen (record.cancelled = true) "deployment was cancelled"
    if record.appsCommitted then accept state
    else
      (S.validateAgainst record.config state.namespaces.keys).mapError .because
      let (answer, staged) ← state.taskArray S (.deployCommitted operationId nowEpochSecs)
      match answer with
      | .refused reason => throw reason
      | _ =>
        let published ← stageWrites S (configToDesiredWrites record.config) staged
        accept published

end DesiredState

end Reliaburger
