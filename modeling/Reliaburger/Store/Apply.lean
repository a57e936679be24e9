import Reliaburger.Store.Progress

/-! Applying one write to the store. The store takes batch ids from a counter outside it, so a
call runs on a `Machine`: the store and how many ids have been taken so far. A refused call
returns the machine as it left it, which is how the source's `&mut self` behaves.
-/

namespace Reliaburger

structure Machine where
  store : TaskArrays := {}
  allocated : Nat := 0

abbrev Called (Answer : Type) : Type := Except TaskArrayStoreError Answer × Machine

namespace Machine

def allocate (ids : Nat → Nat) (machine : Machine) : Nat × Machine :=
  (ids machine.allocated, { machine with allocated := machine.allocated + 1 })

end Machine

-- Job transactions

/-- What a job transaction will do to the store once every check has passed. -/
inductive JobEffect where
  | superseded
  | existing (batchId : Nat)
  | recorded (store : TaskArrays)
  | admitRun (store : TaskArrays) (record : TaskArrayRecord) (run : RunRecord)

namespace TaskArrays

/-- A fire for a minute before the latest observed one is dropped. -/
def supersedes (store : TaskArrays) : JobWrite → Bool
  | .fire _ _ _ minute _ => store.cronObservedMinute.any (· > minute)
  | .put .. => false

/-- Whether a deployment other than the one a write acts for owns its workload. -/
def ownedByOther (store : TaskArrays) (write : JobWrite) : Bool :=
  (store.deploymentOwner write.name write.ns).any (fun owner => some owner != write.operation)

def newRecord (name ns : String) (template : JobSpec) (state : TaskArrayState)
    : TaskArrayRecord where
  name := name
  ns := ns
  template := template
  state := state

/-- Admit a planned run, or record that a cron occurrence found no room. -/
def decideRun (retained : TaskArrays) (jobs : JobCatalog) (definition : JobDefinition)
    (run : RunRecord) (nowEpochSecs : Nat)
    : Except TaskArrayStoreError JobEffect :=
  match TaskArrayState.new definition.tasks nowEpochSecs with
  | .error refused => .error (.invalid refused)
  | .ok state =>
    match retained.checkCapacity run.ns (.of (some run.trigger)) 1 with
    | .ok () =>
      .ok (.admitRun { retained with jobs }
        (newRecord run.name run.ns definition.template state) run)
    | .error full =>
      match run.trigger with
      | .cron minute =>
        .ok (.recorded { retained with jobs := jobs.recordSkip run.ns run.name minute })
      | _ => .error full

/-- Decide a job transaction: a retry finds its run before anything is pruned; otherwise the
transaction is prepared against what pruning leaves. -/
def decideJob (P : Platform) (store : TaskArrays) (write : JobWrite)
    : Except TaskArrayStoreError JobEffect :=
  if store.supersedes write then .ok .superseded
  else
    let active := store.active.map Prod.fst
    match store.jobs.prepare P write active with
    | .ok (.existing batchId, _) => .ok (.existing batchId)
    | _ =>
      let retained := store.pruneAt write.nowEpochSecs
      match retained.jobs.prepare P write active with
      | .error refused => .error (.job refused)
      | .ok (.existing batchId, _) => .ok (.existing batchId)
      | .ok (.recorded, jobs) =>
        if store.ownedByOther write then .error (.refuse "a deployment owns this workload")
        else .ok (.recorded { retained with jobs })
      | .ok (.register definition run now, jobs) =>
        if store.ownedByOther write then .error (.refuse "a deployment owns this workload")
        else retained.decideRun jobs definition run now

def admitRun (store : TaskArrays) (id : Nat) (record : TaskArrayRecord) (run : RunRecord)
    : TaskArrays :=
  let arrays := store.arrays.insert id record
  { store with
    arrays
    jobs := (store.jobs.recordRun id run).retainRuns (fun id => arrays.contains id) }

end TaskArrays

namespace Machine

variable (P : Platform) (ids : Nat → Nat)

variable (machine : Machine)

@[irreducible] def applyJob (write : JobWrite) : Called TaskArrayApplied :=
  match machine.store.decideJob P write with
  | .error refused => (.error refused, machine)
  | .ok .superseded => (.ok .jobRecorded, machine)
  | .ok (.existing batchId) => (.ok (.registered batchId), machine)
  | .ok (.recorded store) => (.ok .jobRecorded, { machine with store })
  | .ok (.admitRun store record run) =>
    let (batchId, next) := machine.allocate ids
    (.ok (.registered batchId), { next with store := store.admitRun batchId record run })

-- Finite batches

def checkFiniteJobs (seen : List String)
    : List (String × JobSpec) → Except TaskArrayStoreError Unit
  | [] => .ok ()
  | (name, spec) :: rest =>
    if !validWorkloadLabel name || seen.contains name || spec.schedule.isSome
        || !spec.runBefore.isEmpty then
      .error (.refuse "finite batch jobs need distinct DNS-label names and no trigger fields")
    else if !validWorkloadLabel spec.namespace then
      .error (.refuse "invalid finite job namespace")
    else
      match (JobDefinition.fromSpec { spec with ns := some spec.namespace }).validate P with
      | .error refused => .error (.job refused)
      | .ok () => checkFiniteJobs (name :: seen) rest

/-- The jobs of a batch in name order, each with its namespace written out. -/
def normaliseJobs (jobs : List (String × JobSpec)) : List (String × JobSpec) :=
  (jobs.insertionSort (fun left right => left.1 ≤ right.1)).map
    (fun job => (job.1, { job.2 with ns := some job.2.namespace }))

def batchPut (requestId : String) (nowEpochSecs : Nat) (job : String × JobSpec) : JobWrite :=
  .put job.1 job.2.namespace (.fromSpec job.2) (some (.manual requestId)) nowEpochSecs

/-- Admit the jobs of a finite batch in order. -/
def registerEach (requestId : String) (nowEpochSecs : Nat)
    : List (String × JobSpec) → Machine → Called (List (String × Nat))
  | [], machine => (.ok [], machine)
  | job :: rest, machine =>
    match machine.applyJob P ids (batchPut requestId nowEpochSecs job) with
    | (.error refused, next) => (.error refused, next)
    | (.ok (.registered batchId), next) =>
      match registerEach requestId nowEpochSecs rest next with
      | (.error refused, final) => (.error refused, final)
      | (.ok cohorts, final) => (.ok ((job.1, batchId) :: cohorts), final)
    | (.ok _, next) => (.error (.refuse "finite job produced no run"), next)

variable (store : TaskArrays)

/-- The manifest an idempotency key already names. -/
def requested (requestId : String) : Option (Nat × TaskManifest) :=
  store.manifests.toList.find? (fun entry =>
    entry.2.request.any (fun request => request.1 == requestId))

/-- The first 32 hexadecimal characters of a request identity's digest name its batch. -/
def batchName (requestId : String) : String :=
  "jobs-" ++ String.ofList ((P.sha256 requestId).toList.take 32)

def registerJobs (requestId : String) (jobs : List (String × JobSpec)) (nowEpochSecs : Nat)
    (machine : Machine)
    : Called TaskArrayApplied :=
  if !validIdentity requestId || jobs.isEmpty || jobs.length > maxFiniteBatchJobs then
    (.error (.refuse ("finite batches require a request identity and 1–64 named jobs; "
      ++ "use resource profiles for larger submissions")), machine)
  else
    match checkFiniteJobs P [] (jobs.insertionSort (fun left right => left.1 ≤ right.1)) with
    | .error refused => (.error refused, machine)
    | .ok () =>
      let digest := P.sha256 (P.jobsJson (normaliseJobs jobs))
      match requested machine.store requestId with
      | some (id, prior) =>
        if prior.request.any (fun request => request.2 == digest) then
          (.ok (.registered id), machine)
        else (.error (.refuse "batch request already names different work"), machine)
      | none =>
        match registerEach P ids requestId nowEpochSecs (normaliseJobs jobs) machine with
        | (.error refused, next) => (.error refused, next)
        | (.ok cohorts, next) =>
          let (batchId, final) := next.allocate ids
          let manifest : TaskManifest := {
            name := batchName P requestId
            ns := defaultNamespace
            cohorts
            commonJobs := true
            request := some (requestId, digest)
            submittedAtEpochSecs := nowEpochSecs }
          (.ok (.registered batchId),
            { final with store :=
              { final.store with
                manifests := final.store.manifests.insert batchId manifest } })

-- Deployments

/-- The least id from `start` on that names neither an array nor a manifest; `fuel` bounds the
search by the number of taken ids. -/
def nextFree (store : TaskArrays) : Nat → Nat → Nat
  | 0, start => start
  | fuel + 1, start =>
    if store.arrays.contains start || store.manifests.contains start then
      nextFree store fuel (start + 1)
    else start

/-- The ids a transaction is tried with before it touches the caller's counter. -/
def previewIds (store : TaskArrays) : Nat → Nat
  | 0 => nextFree store (store.arrays.size + store.manifests.size) 1
  | count + 1 =>
    nextFree store (store.arrays.size + store.manifests.size) (previewIds store count + 1)

def isHexDigit (char : Char) : Bool :=
  ('0' ≤ char && char ≤ '9') || ('a' ≤ char && char ≤ 'f') || ('A' ≤ char && char ≤ 'F')

/-- A deployment identity is 32 hexadecimal characters. -/
def validOperationId (operationId : String) : Bool :=
  operationId.utf8ByteSize == 32 && operationId.toList.all isHexDigit

def deploymentPut (trigger : Option RunTrigger) (nowEpochSecs : Nat) (name : String)
    (spec : JobSpec)
    : JobWrite :=
  .put name spec.namespace ((JobDefinition.fromSpec spec).within spec.namespace) trigger
    nowEpochSecs

def deploymentTrigger (operationId : String) (spec : JobSpec) : Option RunTrigger :=
  if (JobDefinition.fromSpec spec).cron.isNone then some (.hook operationId) else none

def workloads (config : Config) : List (String × String) :=
  config.app.toList.map (fun entry => (entry.1, entry.2.namespace))
    ++ config.job.toList.map (fun entry => (entry.1, entry.2.namespace))

/-- A workload kind cannot reuse an identity while its job history remains visible. -/
def jobIdentityReserved (ns name : String) : Bool :=
  (store.jobs.definition ns name).isSome || store.jobs.referenced ns name

/-- Try to admit every job of a configuration; only whether it fails is used. -/
def tryJobs (operationId : String) (nowEpochSecs : Nat)
    : List (String × JobSpec) → Machine → Except TaskArrayStoreError Unit
  | [], _ => .ok ()
  | (name, spec) :: rest, machine =>
    match machine.applyJob P ids
        (deploymentPut (deploymentTrigger operationId spec) nowEpochSecs name spec) with
    | (.error refused, _) => .error refused
    | (.ok _, next) => tryJobs operationId nowEpochSecs rest next

def putDeployment (operationId : String) (record : DeploymentRecord) : Machine :=
  { machine with store :=
    { machine.store with
      deployments := machine.store.deployments.insert operationId record } }

def admitHooks (operationId : String) (nowEpochSecs : Nat)
    : List (String × JobSpec) → DeploymentRecord → Machine → Called Unit
  | [], _, machine => (.ok (), machine)
  | (name, spec) :: rest, record, machine =>
    if spec.runBefore.isEmpty then admitHooks operationId nowEpochSecs rest record machine
    else
      match machine.applyJob P ids
          (deploymentPut (some (.hook operationId)) nowEpochSecs name spec) with
      | (.error refused, next) => (.error refused, next)
      | (.ok (.registered batchId), next) =>
        let record := { record with hookRuns := record.hookRuns.insert name batchId }
        admitHooks operationId nowEpochSecs rest record
          (next.putDeployment operationId record)
      | (.ok _, next) => (.error (.refuse "hook admission produced no run"), next)

def admitOrdinary (operationId : String) (nowEpochSecs : Nat)
    : List (String × JobSpec) → DeploymentRecord → Machine → Called DeploymentRecord
  | [], record, machine => (.ok record, machine)
  | (name, spec) :: rest, record, machine =>
    if !spec.runBefore.isEmpty then
      admitOrdinary operationId nowEpochSecs rest record machine
    else
      match machine.applyJob P ids
          (deploymentPut (deploymentTrigger operationId spec) nowEpochSecs name spec) with
      | (.error refused, next) => (.error refused, next)
      | (.ok answer, next) =>
        let record := match answer with
          | .registered batchId =>
            { record with jobRuns := record.jobRuns.insert name batchId }
          | _ => record
        admitOrdinary operationId nowEpochSecs rest record
          (next.putDeployment operationId record)

/-- Completed deployments, oldest first, beyond the newest nineteen. -/
def forgottenDeployments : List String :=
  let older (left right : Nat × String) : Prop :=
    left.1 < right.1 ∨ left.1 = right.1 ∧ left.2 ≤ right.2
  let terminal := (store.deployments.toList.filterMap (fun entry =>
    if entry.2.completed then some (entry.2.submittedAtEpochSecs, entry.1) else none)
    ).insertionSort older
  (terminal.take (terminal.length - 19)).map Prod.snd

/-- The checks a new deployment passes before it changes anything. -/
def checkDeployment (operationId : String) (config : Config) (nowEpochSecs : Nat)
    : Except TaskArrayStoreError Unit :=
  if (store.deployments.toList.filter (fun entry => !entry.2.completed)).length
      ≥ maxUnsettledDeployments then
    .error (.refuse "64 deployments are already unsettled")
  else if (workloads config).any (fun workload =>
      (store.deploymentOwner workload.1 workload.2).isSome) then
    .error (.refuse "another deployment still owns this workload")
  else if config.app.toList.any (fun entry =>
      jobIdentityReserved store entry.2.namespace entry.1) then
    .error (.refuse "app identity belongs to a job definition or retained run")
  else
    tryJobs P (previewIds store) operationId nowEpochSecs config.job.toList { store }

/-- Persist deployment ownership and admit only its prerequisite runs. -/
def deployBegin (operationId : String) (config : Config) (nowEpochSecs : Nat)
    (machine : Machine)
    : Called TaskArrayApplied :=
  if !validOperationId operationId then
    (.error (.refuse "deployment identity must be 32 hexadecimal characters"), machine)
  else
    match config.validateIntrinsic P with
    | .error refused => (.error (.job (.config refused)), machine)
    | .ok () =>
      if (P.configJson config).utf8ByteSize > maxDeploymentBytes then
        (.error (.refuse "deployment exceeds 128 KiB"), machine)
      else
        match machine.store.deployments[operationId]? with
        | some prior =>
          if prior.config = config then (.ok .jobRecorded, machine)
          else
            (.error (.refuse "deployment identity already names different work"), machine)
        | none =>
          match checkDeployment P machine.store operationId config nowEpochSecs with
          | .error refused => (.error refused, machine)
          | .ok () =>
            let deployments := (forgottenDeployments machine.store).foldl
              (fun deployments id => deployments.erase id) machine.store.deployments
            let trimmed := { machine with store := { machine.store with deployments } }
            let record : DeploymentRecord :=
              { config, submittedAtEpochSecs := nowEpochSecs }
            match admitHooks P ids operationId nowEpochSecs config.job.toList record
                (trimmed.putDeployment operationId record) with
            | (.error refused, next) => (.error refused, next)
            | (.ok (), next) => (.ok .jobRecorded, next)

def hasStatus (id : Nat) (holds : TaskArrayStatus → Bool) : Bool :=
  store.arrays[id]?.any (fun record => holds record.state.status)

/-- App publication succeeded: admit ordinary jobs and register schedules. -/
def deployCommitted (operationId : String) (nowEpochSecs : Nat) (machine : Machine)
    : Called TaskArrayApplied :=
  match machine.store.deployments[operationId]? with
  | none => (.error (.refuse "unknown deployment"), machine)
  | some record =>
    if record.cancelled then
      (.error (.refuse "cancelled deployment cannot publish apps"), machine)
    else if record.appsCommitted then (.ok .jobRecorded, machine)
    else if !(BTreeMap.valueList record.hookRuns).all (fun id =>
        hasStatus machine.store id (· == .succeeded)) then
      (.error (.refuse "hooks have no accepted successful outcome"), machine)
    else
      let committed := { record with appsCommitted := true }
      match admitOrdinary P ids operationId nowEpochSecs record.config.job.toList committed
          (machine.putDeployment operationId committed) with
      | (.error refused, next) => (.error refused, next)
      | (.ok final, next) => (.ok .jobRecorded, next.putDeployment operationId final)

def deployCancel (operationId : String) (nowEpochSecs : Nat) (machine : Machine)
    : Called TaskArrayApplied :=
  match machine.store.deployments[operationId]? with
  | none => (.error (.refuse "unknown deployment"), machine)
  | some record =>
    if record.completed then (.ok .jobRecorded, machine)
    else
      match machine.store.cancelAll nowEpochSecs record.runs with
      | (.error refused, store) => (.error refused, { machine with store })
      | (.ok (), store) =>
        (.ok .cancelled,
          ({ machine with store } : Machine).putDeployment operationId
            { record with cancelled := true })

def outcomeOf (record : DeploymentRecord) : DeploymentOutcome :=
  if record.runs.any (fun id =>
      hasStatus store id (fun status =>
        status == .failed || status == .completedWithFailures)) then .failed
  else if record.cancelled then .cancelled
  else .completed

/-- Positively settled operations release workload ownership. -/
def deployRelease (operationId : String) (machine : Machine) : Called TaskArrayApplied :=
  let store := machine.store
  match store.deployments[operationId]? with
  | none => (.error (.refuse "unknown deployment"), machine)
  | some record =>
    if record.completed then (.ok .jobRecorded, machine)
    else
      let terminal := record.runs.all (fun id => hasStatus store id (·.isTerminal))
      let failed := (BTreeMap.valueList record.hookRuns).any (fun id =>
        hasStatus store id (fun status => status.isTerminal && status != .succeeded))
      if !terminal || (!record.appsCommitted && !record.cancelled && !failed) then
        (.error (.refuse "deployment has not positively settled"), machine)
      else
        let times := record.runs.filterMap (fun id =>
          store.arrays[id]?.bind (·.terminalAtEpochSecs))
        let finishedAt := times.max?.getD record.submittedAtEpochSecs
        (.ok .jobRecorded,
          machine.putDeployment operationId
            { record with
              completed := true
              outcome := some (outcomeOf store record)
              finishedAt := some finishedAt })

def applyDeployment : TaskArrayWrite → Called TaskArrayApplied
  | .registerJobs requestId jobs now => registerJobs P ids requestId jobs now machine
  | .deployBegin operationId config now => deployBegin P ids operationId config now machine
  | .deployCommitted operationId now => deployCommitted P ids operationId now machine
  | .deployCancel operationId now => deployCancel operationId now machine
  | .deployRelease operationId => deployRelease operationId machine
  | _ => (.error (.refuse "not a deployment transaction"), machine)

/-- Preflight the complete transaction with made-up ids before touching the caller's counter
or publishing any state. -/
def applyTransaction (write : TaskArrayWrite) : Called TaskArrayApplied :=
  match ({ store := machine.store } : Machine).applyDeployment P (previewIds machine.store)
      write with
  | (.error refused, _) => (.error refused, machine)
  | (.ok _, _) =>
    match machine.applyDeployment P ids write with
    | (.error refused, next) => (.error refused, { machine with allocated := next.allocated })
    | (.ok answer, next) => (.ok answer, next)

-- Arrays and manifests

def register (name ns : String) (template : JobSpec) (spec : TaskArraySpec)
    (submittedAtEpochSecs : Nat) (machine : Machine)
    : Called TaskArrayApplied :=
  if !validWorkloadLabel name || !validWorkloadLabel ns then (.error .emptyName, machine)
  else
    match validateTemplate P template with
    | .error refused => (.error (.invalid refused), machine)
    | .ok () =>
      match TaskArrayState.new spec submittedAtEpochSecs with
      | .error refused => (.error (.invalid refused), machine)
      | .ok state =>
        -- Pruned before the capacity check, and left pruned when that check refuses.
        let pruned := { machine with store := machine.store.pruneAt submittedAtEpochSecs }
        match pruned.store.checkCapacity ns .bulk 1 with
        | .error refused => (.error refused, pruned)
        | .ok () =>
          let (batchId, next) := pruned.allocate ids
          (.ok (.registered batchId),
            { next with store :=
              { next.store with
                arrays := next.store.arrays.insert batchId
                  (TaskArrays.newRecord name ns template state) } })

def checkCohorts (seen : List String) : List ManifestCohort → Except TaskArrayStoreError Unit
  | [] => .ok ()
  | cohort :: rest =>
    if !validWorkloadLabel cohort.name || seen.contains cohort.name then
      .error (.manifest "profile names must be nonempty and unique")
    else
      match cohort.spec.validate with
      | .error refused => .error (.invalid refused)
      | .ok () =>
        match validateTemplate P cohort.template with
        | .error refused => .error (.invalid refused)
        | .ok () => checkCohorts (cohort.name :: seen) rest

def checkManifest (name ns : String) (cohorts : List ManifestCohort)
    : Except TaskArrayStoreError Unit :=
  if !validWorkloadLabel name || !validWorkloadLabel ns || cohorts.isEmpty
      || cohorts.length > 16 then
    .error (.manifest "give DNS-label name/namespace and 1–16 resource profiles")
  else
    match checkCohorts P [] cohorts with
    | .error refused => .error refused
    | .ok () =>
      if (cohorts.map (·.spec.count)).sum > maxTaskCount then
        .error (.manifest "manifest exceeds the task-count bound")
      else .ok ()

def manifestDigest (name ns : String) (cohorts : List ManifestCohort) : String :=
  P.sha256 (P.manifestJson name ns cohorts)

/-- The parent id a manifest retry already created, if its request names a retained receipt
with the same content. -/
def manifestReplay (name ns requestId : String) (cohorts : List ManifestCohort)
    : Except TaskArrayStoreError (Option Nat) :=
  if !validIdentity requestId then
    .error (.manifest "request identity must contain 1–128 bytes without control characters")
  else
    match requested store requestId with
    | none => .ok none
    | some (batchId, prior) =>
      if prior.request.any (fun request => request.2 == manifestDigest P name ns cohorts) then
        .ok (some batchId)
      else .error (.manifest "this Idempotency-Key already names different work")

def enrolEach (name ns : String) (submittedAtEpochSecs : Nat)
    : List ManifestCohort → Machine → Called (List (String × Nat))
  | [], machine => (.ok [], machine)
  | cohort :: rest, machine =>
    let (id, next) := machine.allocate ids
    match TaskArrayState.new cohort.spec submittedAtEpochSecs with
    | .error refused => (.error (.invalid refused), next)
    | .ok state =>
      let record := TaskArrays.newRecord name ns cohort.template state
      let enrolled :=
        { next with store :=
          { next.store with arrays := next.store.arrays.insert id record } }
      match enrolEach name ns submittedAtEpochSecs rest enrolled with
      | (.error refused, final) => (.error refused, final)
      | (.ok identities, final) => (.ok ((cohort.name, id) :: identities), final)

/-- Atomically register every profile before any work is dispatched. -/
def registerManifest (name ns requestId : String) (cohorts : List ManifestCohort)
    (submittedAtEpochSecs : Nat) (machine : Machine)
    : Called TaskArrayApplied :=
  match manifestReplay P machine.store name ns requestId cohorts with
  | .error refused => (.error refused, machine)
  | .ok (some batchId) => (.ok (.registered batchId), machine)
  | .ok none =>
    match checkManifest P name ns cohorts with
    | .error refused => (.error refused, machine)
    | .ok () =>
      match machine.store.checkCapacity ns .bulk cohorts.length with
      | .error refused => (.error refused, machine)
      | .ok () =>
        let pruned := { machine with store := machine.store.pruneAt submittedAtEpochSecs }
        let (batchId, next) := pruned.allocate ids
        match enrolEach ids name ns submittedAtEpochSecs cohorts next with
        | (.error refused, final) => (.error refused, final)
        | (.ok identities, final) =>
          let manifest : TaskManifest := {
            name, ns
            cohorts := identities
            commonJobs := false
            request := some (requestId, manifestDigest P name ns cohorts)
            submittedAtEpochSecs }
          (.ok (.registered batchId),
            { final with store :=
              { final.store with
                manifests := final.store.manifests.insert batchId manifest } })

-- Every write

/-- Disable future occurrences and cancel all current runs in one transaction. -/
def stopDefinition (name ns : String) (forget : Bool) (nowEpochSecs : Nat) (machine : Machine)
    : Called TaskArrayApplied :=
  match machine.store.jobs.stop ns name forget with
  | .error refused => (.error (.job refused), machine)
  | .ok jobs =>
    let runs := (jobs.runs.toList.filter (fun entry =>
      entry.2.name == name && entry.2.ns == ns)).map Prod.fst
    match ({ machine.store with jobs } : TaskArrays).cancelAll nowEpochSecs runs with
    | (.error refused, store) => (.error refused, { machine with store })
    | (.ok (), store) => (.ok .cancelled, { machine with store })

/-- Cancel every profile through one replicated operation. -/
def cancelManifest (batchId nowEpochSecs : Nat) (machine : Machine) : Called TaskArrayApplied :=
  match machine.store.manifests[batchId]? with
  | none => (.error (.unknownArray batchId), machine)
  | some manifest =>
    match machine.store.cancelAll nowEpochSecs (manifest.cohorts.map Prod.snd) with
    | (.error refused, store) => (.error refused, { machine with store })
    | (.ok (), store) => (.ok .cancelled, { machine with store })

/-- Publish what a write that takes no ids comes to; a refusal leaves the machine as it was. -/
def publish : Except TaskArrayStoreError (TaskArrayApplied × TaskArrays) → Called TaskArrayApplied
  | .error refused => (.error refused, machine)
  | .ok (answer, store) => (.ok answer, { machine with store })

/-- Each of a tick's writes applies on its own, so one refused array doesn't drop the others.
-/
def tick (writes : List TaskArrayWrite) (machine : Machine) : Called TaskArrayApplied :=
  match writes.mapM TaskArrayWrite.progress? with
  | some progress =>
    if writes.length > maxTickWrites then
      (.error (.refuse s!"a tick carries at most {maxTickWrites} progress writes"), machine)
    else
      let (refused, store) := machine.store.applyTick progress
      (.ok (.ticked refused), { machine with store })
  | none => (.error (.refuse s!"a tick carries at most {maxTickWrites} progress writes"), machine)

def apply (write : TaskArrayWrite) : Called TaskArrayApplied :=
  match write with
  | .registerJobs .. | .deployBegin .. | .deployCommitted .. | .deployCancel ..
  | .deployRelease .. =>
    machine.applyTransaction P ids write
  | .stopDefinition name ns forget now => machine.stopDefinition name ns forget now
  | .cronObserve minute =>
    if minute < 0 then (.error (.refuse "cron minute precedes the epoch"), machine)
    else
      (.ok .jobRecorded,
        { machine with store :=
          { machine.store with
            cronObservedMinute :=
              laterMinute machine.store.cronObservedMinute (some minute) } })
  | .prune now retention =>
    (.ok .jobRecorded, { machine with store := machine.store.pruneWithin now retention })
  | .job write => machine.applyJob P ids write
  | .tick writes => machine.tick writes
  | .registerManifest name ns requestId cohorts submitted =>
    if (machine.store.deploymentOwner name ns).isSome then
      (.error (.refuse "an unsettled deployment owns this workload"), machine)
    else machine.registerManifest P ids name ns requestId cohorts submitted
  | .cancelManifest batchId now => machine.cancelManifest batchId now
  | .register name ns template spec submitted =>
    if (machine.store.deploymentOwner name ns).isSome then
      (.error (.refuse "an unsettled deployment owns this workload"), machine)
    else machine.register P ids name ns template spec submitted
  | .cancel batchId now =>
    machine.publish ((machine.store.advance batchId TaskArrays.cancelRecord now).map
      (fun store => (.cancelled, store)))
  | .progress write => machine.publish (machine.store.applyProgress write)
  | .replay batchId node digest now =>
    machine.publish (machine.store.replay P batchId node digest now)

def run (writes : List TaskArrayWrite) : Machine :=
  writes.foldl (fun machine write => (machine.apply P ids write).2) machine

end Machine

/-- A supply of batch ids that never hands out zero or the same id twice. -/
structure FreshIds (ids : Nat → Nat) : Prop where
  nonzero : ∀ count, ids count ≠ 0
  distinct : Function.Injective ids

end Reliaburger
