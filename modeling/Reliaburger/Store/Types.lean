import Reliaburger.Job.Catalog

/-! Every task array the cluster knows about, as the replicated state machine holds them, and
the writes that change it.
-/

namespace Reliaburger

/-- How long a finished array stays readable before it is pruned. -/
def terminalRetentionSecs : Nat := 3600

/-- Most finished arrays kept across the cluster. -/
def maxTerminalArrays : Nat := 24

/-- Most finished arrays one namespace keeps. -/
def maxTerminalPerNamespace : Nat := 20

/-- Most runs active at once across the cluster. -/
def maxActiveArrays : Nat := 128

/-- Active-run slots only cron fires and deployment jobs may use. -/
def reservedTriggeredRuns : Nat := 32

/-- Most active arrays, batches and manual runs one namespace may hold. -/
def maxActiveRunsPerNamespace : Nat := 64

/-- Most progress writes one tick may carry. -/
def maxTickWrites : Nat := 1024

/-- Longest reason an unrunnable write may record. -/
def maxUnrunnableReasonBytes : Nat := 1024

def maxFiniteBatchJobs : Nat := 64

def maxUnsettledDeployments : Nat := 64

/-- Largest configuration a deployment may carry. -/
def maxDeploymentBytes : Nat := 128 * 1024

/-- Why a namespace's quota leaves no room. -/
inductive QuotaError where
  | cpuExceeded (ns : String) (current requested limit : Nat)
  | memoryExceeded (ns : String) (current requested limit : Nat)
  | gpuExceeded (ns : String) (current requested limit : Nat)
  | maxAppsExceeded (ns : String) (current limit : Nat)
  | maxReplicasExceeded (ns : String) (current requested limit : Nat)
deriving DecidableEq, Repr

/-- One submitted array: what to run, and how far it has got. -/
structure TaskArrayRecord where
  name : String
  ns : String
  template : JobSpec
  state : TaskArrayState
  /-- Time of the accepted terminal transition. -/
  terminalAtEpochSecs : Option Nat := none
  quotaBlocked : Option QuotaError := none
  unrunnable : Option String := none
deriving DecidableEq

/-- Durable mapping from a manifest's profile names to stable array identities. -/
structure TaskManifest where
  name : String
  ns : String
  cohorts : List (String × Nat)
  /-- Whether this is a finite group of named single jobs. -/
  commonJobs : Bool
  /-- Request identity and digest of the complete input. -/
  request : Option (String × String)
  submittedAtEpochSecs : Nat
deriving DecidableEq

inductive DeploymentOutcome where
  | completed
  | failed
  | cancelled
deriving DecidableEq, Repr

/-- Durable deployment intent and the identities of its accepted runs. -/
structure DeploymentRecord where
  config : Config
  hookRuns : BTreeMap String Nat := ∅
  jobRuns : BTreeMap String Nat := ∅
  appsCommitted : Bool := false
  cancelled : Bool := false
  completed : Bool := false
  outcome : Option DeploymentOutcome := none
  finishedAt : Option Nat := none
  submittedAtEpochSecs : Nat
deriving DecidableEq

namespace DeploymentRecord

/-- Whether the deployment owns a workload: all of its apps and jobs until the apps are
committed, and after that the jobs it runs. -/
def blocks (record : DeploymentRecord) (name ns : String) : Bool :=
  !record.completed
    && ((!record.appsCommitted && record.config.app[name]?.any (·.namespace == ns))
      || record.config.job[name]?.any (fun spec =>
        spec.namespace == ns && (!record.appsCommitted || record.jobRuns.contains name)))

/-- Run identities pinned until the deployment is positively settled. -/
def runs (record : DeploymentRecord) : List Nat :=
  BTreeMap.valueList record.hookRuns ++ BTreeMap.valueList record.jobRuns

end DeploymentRecord

/-- The replicated set of task arrays, keyed by batch id. -/
structure TaskArrays where
  jobs : JobCatalog := {}
  cronObservedMinute : Option Int := none
  deployments : BTreeMap String DeploymentRecord := ∅
  arrays : BTreeMap Nat TaskArrayRecord := ∅
  manifests : BTreeMap Nat TaskManifest := ∅
deriving DecidableEq

/-- One leader's report about one array. -/
inductive ProgressWrite where
  | sync (batchId : Nat) (results : List (NodeId × ChunkResult))
      (grants : List (NodeId × IndexRangeSet)) (nowEpochSecs : Nat)
  | requeue (batchId : Nat) (node : NodeId) (nowEpochSecs : Nat)
  | unknown (batchId : Nat) (node : NodeId)
  | unrunnable (batchId : Nat) (reason : String) (nowEpochSecs : Nat)
  | quotaBlocked (batchId : Nat) (reason : Option QuotaError)
deriving DecidableEq

def ProgressWrite.batchId : ProgressWrite → Nat
  | sync batchId _ _ _ => batchId
  | requeue batchId _ _ => batchId
  | unknown batchId _ => batchId
  | unrunnable batchId _ _ => batchId
  | quotaBlocked batchId _ => batchId

inductive TaskArrayWrite where
  | registerJobs (requestId : String) (jobs : List (String × JobSpec))
      (submittedAtEpochSecs : Nat)
  | stopDefinition (name ns : String) (forget : Bool) (nowEpochSecs : Nat)
  | deployBegin (operationId : String) (config : Config) (nowEpochSecs : Nat)
  | deployCommitted (operationId : String) (nowEpochSecs : Nat)
  | deployCancel (operationId : String) (nowEpochSecs : Nat)
  | deployRelease (operationId : String)
  | job (write : JobWrite)
  | cronObserve (minute : Int)
  | prune (nowEpochSecs retentionSecs : Nat)
  | replay (batchId : Nat) (node : NodeId) (grantDigest : String) (nowEpochSecs : Nat)
  | registerManifest (name ns requestId : String) (cohorts : List ManifestCohort)
      (submittedAtEpochSecs : Nat)
  | cancelManifest (batchId nowEpochSecs : Nat)
  | register (name ns : String) (template : JobSpec) (spec : TaskArraySpec)
      (submittedAtEpochSecs : Nat)
  | cancel (batchId nowEpochSecs : Nat)
  | progress (write : ProgressWrite)
  | tick (writes : List TaskArrayWrite)

def TaskArrayWrite.progress? : TaskArrayWrite → Option ProgressWrite
  | progress write => some write
  | _ => none

/-- Why a write was refused as a whole. -/
inductive TaskArrayStoreError where
  | job (error : JobError)
  | manifest (reason : String)
  | unknownArray (batchId : Nat)
  | invalid (error : TaskArraySpecError)
  | emptyName
  | tooManyActive (active limit : Nat)
  | namespaceFull (ns : String) (active : Nat)
deriving DecidableEq, Repr

namespace TaskArrayStoreError

/-- A job transaction refused with a fixed text. -/
def refuse (reason : String) : TaskArrayStoreError :=
  .job (.reason reason)

end TaskArrayStoreError

inductive TaskArrayApplied where
  | jobRecorded
  | registered (batchId : Nat)
  | quotaRecorded
  | synced (resultsApplied resultsRefused grantsApplied grantsRefused : Nat)
  | cancelled
  | requeued (chunks : IndexRangeSet)
  /-- These of a tick's writes were refused, by array. -/
  | ticked (refused : List (Nat × TaskArrayStoreError))
deriving DecidableEq

/-- Which share of the active-run slots a new run may use. -/
inductive Admission where
  | bulk
  | triggered
deriving DecidableEq, Repr

def Admission.of : Option RunTrigger → Admission
  | some (.cron _) | some (.hook _) => .triggered
  | some (.manual _) | none => .bulk

/-- Active runs at which the share is full. -/
def Admission.limit : Admission → Nat
  | .bulk => maxActiveArrays - reservedTriggeredRuns
  | .triggered => maxActiveArrays

namespace TaskArrays

variable (store : TaskArrays)

/-- Arrays that haven't reached a terminal status. -/
def active : List (Nat × TaskArrayRecord) :=
  store.arrays.toList.filter (fun entry => !entry.2.state.status.isTerminal)

/-- The first unsettled deployment that owns a workload. -/
def deploymentOwner (name ns : String) : Option String :=
  (store.deployments.toList.find? (fun entry => entry.2.blocks name ns)).map Prod.fst

/-- Which share of the slots an array takes: that of its run's trigger. -/
def admission (id : Nat) : Admission :=
  .of (store.jobs.runs[id]?.map (·.trigger))

def namespaceBulk (ns : String) : Nat :=
  store.active.countP (fun entry => entry.2.ns == ns && store.admission entry.1 == .bulk)

/-- Refuse a new run when its share of the active-run slots is full. Bulk work stops short of
the reserved headroom and at its namespace's cap.
-/
def checkCapacity (ns : String) (admission : Admission) (adding : Nat)
    : Except TaskArrayStoreError Unit :=
  let active := store.active.length
  if active + adding > admission.limit then .error (.tooManyActive active admission.limit)
  else if admission = .bulk ∧ store.namespaceBulk ns + adding > maxActiveRunsPerNamespace then
    .error (.namespaceFull ns (store.namespaceBulk ns))
  else .ok ()

/-- Digest of an owner's exact held chunk generations, for replay acknowledgements. -/
def ownerFingerprint (P : Platform) (store : TaskArrays) (id : Nat) (node : NodeId)
    : Option String :=
  match store.arrays[id]? with
  | none => none
  | some record =>
    (record.state.heldBy node).map (fun held =>
      P.sha256 (P.generationsJson id node
        (held.iter.map (fun chunk => (chunk, record.state.attemptOf chunk)))))

end TaskArrays

-- Retention

/-- One finished run, or one manifest with all its profiles, as pruning sees it. -/
structure RetentionUnit where
  finishedAt : Nat
  id : Nat
  parent : Bool
  ns : String
deriving DecidableEq, Repr

/-- What pruning drops: an array, or (`true`) a manifest with all its profiles. -/
abbrev Dropped : Type := Nat × Bool

def RetentionUnit.dropped (unit : RetentionUnit) : Dropped :=
  (unit.id, unit.parent)

namespace Retention

/-- Finished units by namespace, oldest first. -/
abbrev Kept : Type := BTreeMap String (List Dropped)

def enqueue (kept : Kept) (unit : RetentionUnit) : Kept :=
  kept.insert unit.ns (kept[unit.ns]?.getD [] ++ [unit.dropped])

/-- Of two namespaces, the one that keeps more; a tie goes to the first. -/
def larger (best : Option (String × List Dropped)) (entry : String × List Dropped)
    : Option (String × List Dropped) :=
  match best with
  | none => some entry
  | some found => if entry.2.length > found.2.length then some entry else best

/-- The namespace that keeps the most; a tie goes to the first by name. -/
def largest (kept : Kept) : Option (String × List Dropped) :=
  kept.toList.foldl larger none

/-- Drop the oldest unit of whichever namespace keeps the most, `rounds` times. -/
def evictLargest : Nat → Kept → List Dropped
  | 0, _ => []
  | rounds + 1, kept =>
    match largest kept with
    | none => []
    | some (ns, units) =>
      units.head?.toList ++ evictLargest rounds (kept.insert ns units.tail)

/-- Which finished units are dropped, given units sorted oldest first: everything past the
retention window, then each namespace's oldest beyond its share, then, while too many remain,
the oldest of whichever namespace keeps the most.
-/
def retentionEvictions (terminal : List RetentionUnit) (nowEpochSecs retentionSecs : Nat)
    : List Dropped :=
  let aged (unit : RetentionUnit) : Bool := nowEpochSecs - unit.finishedAt > retentionSecs
  let kept := (terminal.filter (fun unit => !aged unit)).foldl enqueue ∅
  let excess (units : List Dropped) : Nat := units.length - maxTerminalPerNamespace
  let shares := kept.map (fun _ units => units.drop (excess units))
  let total := BTreeMap.total (fun _ units => units.length) shares
  (terminal.filter aged).map RetentionUnit.dropped
    ++ kept.toList.flatMap (fun entry => entry.2.take (excess entry.2))
    ++ evictLargest (total - maxTerminalArrays) shares

end Retention

namespace TaskArrays

variable (store : TaskArrays)

def pinned : List Nat :=
  store.deployments.toList.flatMap (fun entry =>
    if entry.2.completed then [] else entry.2.runs)

def children : List Nat :=
  store.manifests.toList.flatMap (fun entry => entry.2.cohorts.map Prod.snd)

def finishedAt (cohorts : List (String × Nat)) : Option Nat :=
  (cohorts.mapM (fun cohort => store.arrays[cohort.2]?.bind (·.terminalAtEpochSecs))).map
    (fun times => times.foldl max 0)

def manifestUnits : List RetentionUnit :=
  store.manifests.toList.filterMap (fun entry =>
    (store.finishedAt entry.2.cohorts).map (fun time =>
      { finishedAt := time, id := entry.1, parent := true, ns := entry.2.ns }))

def arrayUnits : List RetentionUnit :=
  store.arrays.toList.filterMap (fun entry =>
    if store.children.contains entry.1 || store.pinned.contains entry.1 then none
    else
      entry.2.terminalAtEpochSecs.map (fun time =>
        { finishedAt := time, id := entry.1, parent := false, ns := entry.2.ns }))

def expired (nowEpochSecs retentionSecs : Nat) : List Dropped :=
  let older (left right : RetentionUnit) : Prop :=
    left.finishedAt < right.finishedAt ∨ left.finishedAt = right.finishedAt ∧ left.id ≤ right.id
  Retention.retentionEvictions
    ((store.manifestUnits ++ store.arrayUnits).insertionSort older) nowEpochSecs retentionSecs

def evict (unit : Dropped) : TaskArrays :=
  if unit.2 then
    match store.manifests[unit.1]? with
    | none => store
    | some manifest =>
      { store with
        manifests := store.manifests.erase unit.1
        arrays := manifest.cohorts.foldl (fun arrays cohort => arrays.erase cohort.2)
          store.arrays }
  else { store with arrays := store.arrays.erase unit.1 }

/-- Whether an unsettled deployment owns a job. -/
def owned (ns name : String) : Bool :=
  store.deployments.toList.any (fun entry => entry.2.blocks name ns)

/-- Drop finished arrays past the retention window or beyond their share, the provenance of
their runs, and the one-off definitions nothing refers to any more.
-/
def pruneWithin (nowEpochSecs retentionSecs : Nat) : TaskArrays :=
  let kept := (store.expired nowEpochSecs retentionSecs).foldl evict store
  { kept with
    jobs := (kept.jobs.retainRuns (fun id => kept.arrays.contains id)).expireOneOff kept.owned }

def pruneAt (nowEpochSecs : Nat) : TaskArrays :=
  store.pruneWithin nowEpochSecs terminalRetentionSecs

end TaskArrays

end Reliaburger
