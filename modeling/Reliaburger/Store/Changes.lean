import Reliaburger.Store.Apply
import Reliaburger.Store.Pruning

/-! The elementary changes that writes are made of, and what each does to one entry of each map of
the store. A change carries what the code checked before it made the change, so that an invariant
is proved once per change and not once per write; the first is that every id was taken before.
-/

namespace Reliaburger

/-- Bounds on what a sequence of changes does, to be chosen by whoever reasons about it. -/
structure Guard where
  /-- Ids are taken from this count on. -/
  base : Nat
  /-- Runs that may be admitted, by their job and what asked for them. -/
  admits : (ns name : String) → RunTrigger → Prop
  /-- Whether arrays that exist may be moved on. -/
  moves : Prop
  /-- Whether the records of deployments may change. -/
  deploys : Prop
  /-- Arrays that may be stopped; one that has already stopped always may. -/
  stops : TaskArrayState → Prop
  stops_stopped : ∀ state, state.stopped ≠ none → stops state
  /-- Jobs that may be given a schedule, and at which time. -/
  schedules : (ns name : String) → Nat → Prop
  /-- Occurrences that may be claimed. -/
  fires : (ns name : String) → Int → Prop
  /-- Acknowledgements that may take work back. -/
  replays : Nat → NodeId → String → Prop
  /-- Whether every manifest is filed while all of its runs are retained. -/
  whole : Prop

def Guard.free (base : Nat) : Guard where
  base := base
  admits _ _ _ := True
  moves := True
  deploys := True
  stops _ := True
  stops_stopped _ _ := trivial
  schedules _ _ _ := True
  fires _ _ _ := True
  replays _ _ _ := True
  whole := False

/-- The calls that stop nothing and take nothing back. -/
def ArrayOp.isPlain : ArrayOp → Bool
  | .grant .. | .complete .. => true
  | _ => false

/-- What a write may do to one array; taking work back is subject to `requeues`. -/
inductive RecordStep (G : Guard) (requeues : Prop) (record : TaskArrayRecord)
    : TaskArrayRecord → Prop where
  | run (ops : List ArrayOp) (plain : ∀ op ∈ ops, op.isPlain = true)
      : RecordStep G requeues record { record with state := record.state.run ops }
  | stop (reason : StopReason) (why : Option String) (asked : reason ≠ .tooManyFailures)
      (allowed : G.stops record.state)
      : RecordStep G requeues record
        { record with state := record.state.stop reason, unrunnable := why }
  | requeue (node : NodeId) (allowed : requeues)
      : RecordStep G requeues record
        { record with state := (record.state.requeueNode node).2 }

/-- A run of `source`, the current definition of its job, may be admitted. -/
structure Admissible (P : Platform) (G : Guard) (store : TaskArrays) (record : TaskArrayRecord)
    (run : RunRecord) (source : DefinitionRecord) : Prop where
  nsLabel : validWorkloadLabel run.ns = true
  nameLabel : validWorkloadLabel run.name = true
  defined : store.jobs.definition run.ns run.name = some source
  provenance
    : run = JobCatalog.newRun P run.name run.ns source.definition source.revision run.trigger
  created
    : ∃ now state,
        TaskArrayState.new source.definition.tasks now = .ok state
        ∧ record = TaskArrays.newRecord run.name run.ns source.definition.template state
  allowed : G.admits run.ns run.name run.trigger
  trigger : run.trigger.validate = .ok ()
  room : store.jobs.runs.size < maxJobRuns
  capacity : store.checkCapacity run.ns (.of (some run.trigger)) 1 = .ok ()
  /-- No retained run has the trigger of a put. -/
  unshared
    : run.trigger.isCron = false
      → ∀ (id : Nat) (other : RunRecord),
          store.jobs.runs[id]? = some other
          → other.name = run.name
          → other.ns = run.ns
          → other.trigger ≠ run.trigger
  /-- An occurrence was claimed before it is run. -/
  fired
    : ∀ minute,
        run.trigger = .cron minute
        → G.fires run.ns run.name minute ∧ source.lastObservedMinute = some minute
  /-- No active run of the job waits for an acknowledged replay. -/
  acknowledged
    : ∀ (id : Nat) (other : RunRecord) (array : TaskArrayRecord),
        store.jobs.runs[id]? = some other
        → other.name = run.name
        → other.ns = run.ns
        → other.replayUnknown = false
        → store.arrays[id]? = some array
        → array.state.status.isTerminal = false
        → other.unknownOwners.isEmpty = true

/-- An array outside every definition may be enrolled. -/
structure Enrollable (P : Platform) (store : TaskArrays) (record : TaskArrayRecord)
    : Prop where
  nsLabel : validWorkloadLabel record.ns = true
  nameLabel : validWorkloadLabel record.name = true
  template : validateTemplate P record.template = .ok ()
  created
    : ∃ spec now state,
        TaskArrayState.new spec now = .ok state
        ∧ record = TaskArrays.newRecord record.name record.ns record.template state
  capacity : store.checkCapacity record.ns .bulk 1 = .ok ()

structure Fileable (G : Guard) (ids : Nat → Nat) (machine : Machine) (manifest : TaskManifest)
    (requestId : String) : Prop where
  request : ∃ digest, manifest.request = some (requestId, digest)
  /-- No retained manifest answers the same request. -/
  unrequested
    : ∀ (id : Nat) (other : TaskManifest) (request : String × String),
        machine.store.manifests[id]? = some other
        → other.request = some request
        → request.1 ≠ requestId
  nonempty : manifest.cohorts ≠ []
  bounded : manifest.cohorts.length ≤ if manifest.commonJobs then 64 else 16
  names : (manifest.cohorts.map Prod.fst).Nodup
  children : (manifest.cohorts.map Prod.snd).Nodup
  taken : ∀ cohort ∈ manifest.cohorts, ∃ index < machine.allocated, ids index = cohort.2
  /-- No other manifest counts these among its profiles. -/
  unfiled : ∀ cohort ∈ manifest.cohorts, cohort.2 ∉ machine.store.children
  /-- A batch of named jobs: its runs answer the same request. -/
  common
    : manifest.commonJobs = true
      → ∀ cohort ∈ manifest.cohorts,
          (∀ run,
            machine.store.jobs.runs[cohort.2]? = some run
            → run.name = cohort.1 ∧ run.trigger = .manual requestId)
          ∧ (G.whole → ∃ run, machine.store.jobs.runs[cohort.2]? = some run)
  /-- A mixed submission: its arrays are new and no definition's. -/
  profiles
    : manifest.commonJobs = false
      → ∀ cohort ∈ manifest.cohorts,
          (∃ record, machine.store.arrays[cohort.2]? = some record)
          ∧ machine.store.jobs.runs[cohort.2]? = none

inductive DeploymentStep (store : TaskArrays) (operationId : String)
    (record : DeploymentRecord)
    : DeploymentRecord → Prop where
  | hook {name : String} {id : Nat} {spec : JobSpec} {run : RunRecord}
      (declared : record.config.job[name]? = some spec) (isHook : spec.runBefore ≠ [])
      (admitted : store.jobs.runs[id]? = some run) (named : run.name = name)
      (home : run.ns = spec.namespace) (trigger : run.trigger = .hook operationId)
      (uncommitted : record.appsCommitted = false)
      : DeploymentStep store operationId record
        { record with hookRuns := record.hookRuns.insert name id }
  | commit (uncancelled : record.cancelled = false) (uncommitted : record.appsCommitted = false)
      (succeeded : ∀ (name : String) (id : Nat),
        record.hookRuns[name]? = some id
        → ∃ array, store.arrays[id]? = some array ∧ array.state.status = .succeeded)
      : DeploymentStep store operationId record { record with appsCommitted := true }
  | ordinary {name : String} {id : Nat} {spec : JobSpec} {run : RunRecord}
      (declared : record.config.job[name]? = some spec) (isOrdinary : spec.runBefore = [])
      (unscheduled : spec.schedule = none)
      (admitted : store.jobs.runs[id]? = some run) (named : run.name = name)
      (home : run.ns = spec.namespace) (trigger : run.trigger = .hook operationId)
      (committed : record.appsCommitted = true)
      : DeploymentStep store operationId record
        { record with jobRuns := record.jobRuns.insert name id }
  | cancel (unsettled : record.completed = false)
      : DeploymentStep store operationId record { record with cancelled := true }
  | release (outcome : DeploymentOutcome) (finishedAt : Nat)
      (unsettled : record.completed = false)
      : DeploymentStep store operationId record
        { record with
          completed := true
          outcome := some outcome
          finishedAt := some finishedAt }

/-- A new deployment may begin. -/
structure Beginnable (P : Platform) (store : TaskArrays) (operationId : String)
    (config : Config) : Prop where
  identity : Machine.validOperationId operationId = true
  valid : config.validateIntrinsic P = .ok ()
  small : (P.configJson config).utf8ByteSize ≤ maxDeploymentBytes
  absent : store.deployments[operationId]? = none
  room
    : (store.deployments.toList.filter (fun entry => !entry.2.completed)).length
      < maxUnsettledDeployments
  unowned
    : ∀ workload ∈ Machine.workloads config,
        store.deploymentOwner workload.1 workload.2 = none

namespace TaskArrays

/-- Forget the oldest completed deployments and record a new one. -/
def begin (store : TaskArrays) (operationId : String) (record : DeploymentRecord)
    : TaskArrays :=
  { store with
    deployments := ((Machine.forgottenDeployments store).foldl
      (fun deployments id => deployments.erase id) store.deployments).insert operationId record }

end TaskArrays

/-- One elementary change of the store and the count of taken ids. -/
inductive Change (P : Platform) (ids : Nat → Nat) (G : Guard) : Machine → Machine → Prop where
  | prune {machine : Machine} (now retention : Nat)
      : Change P ids G machine { machine with store := machine.store.pruneWithin now retention }
  | define {machine : Machine} {name ns : String} {definition : JobDefinition}
      {now revision : Nat} {jobs : JobCatalog} (nsLabel : validWorkloadLabel ns = true)
      (nameLabel : validWorkloadLabel name = true)
      (recorded : machine.store.jobs.Recorded P name ns definition now revision jobs)
      (allowed : definition.cron.isSome = true → G.schedules ns name now)
      : Change P ids G machine { machine with store := { machine.store with jobs } }
  | claim {machine : Machine} {name ns : String} {record : DefinitionRecord} {revision : Nat}
      {minute : Int} {cron : CronPolicy}
      (nsLabel : validWorkloadLabel ns = true) (nameLabel : validWorkloadLabel name = true)
      (found : machine.store.jobs.definition ns name = some record)
      (claims : JobCatalog.Claims record revision minute cron)
      (allowed : G.fires ns name minute)
      : Change P ids G machine
        { machine with store :=
          { machine.store with jobs := machine.store.jobs.claim ns name record minute } }
  | skip {machine : Machine} {name ns : String} {record : DefinitionRecord} {minute : Int}
      (found : machine.store.jobs.definition ns name = some record)
      (claimed : record.lastObservedMinute = some minute)
      : Change P ids G machine
        { machine with store :=
          { machine.store with jobs := machine.store.jobs.recordSkip ns name minute } }
  | admitRun {machine : Machine} {record : TaskArrayRecord} {run : RunRecord}
      {source : DefinitionRecord}
      (admissible : Admissible P G machine.store record run source)
      : Change P ids G machine
        { store := machine.store.admitRun (ids machine.allocated) record run
          allocated := machine.allocated + 1 }
  | enrol {machine : Machine} {record : TaskArrayRecord}
      (enrollable : Enrollable P machine.store record)
      : Change P ids G machine
        { store :=
            { machine.store with
              arrays := machine.store.arrays.insert (ids machine.allocated) record }
          allocated := machine.allocated + 1 }
  | reserve {machine : Machine}
      : Change P ids G machine { machine with allocated := machine.allocated + 1 }
  | file {machine : Machine} {index : Nat} {manifest : TaskManifest} {requestId : String}
      (recent : G.base ≤ index) (taken : index < machine.allocated)
      (noArray : machine.store.arrays[ids index]? = none)
      (noManifest : machine.store.manifests[ids index]? = none)
      (fileable : Fileable G ids machine manifest requestId)
      : Change P ids G machine
        { machine with store :=
          { machine.store with
            manifests := machine.store.manifests.insert (ids index) manifest } }
  | advance {machine : Machine} {id : Nat} {record next : TaskArrayRecord} (now : Nat)
      (moves : G.moves) (found : machine.store.arrays[id]? = some record)
      (step : RecordStep G
        (∀ run, machine.store.jobs.runs[id]? = some run → run.replayUnknown = true) record next)
      : Change P ids G machine { machine with store := machine.store.settle id next now }
  | replay {machine : Machine} {id : Nat} {record : TaskArrayRecord} {run : RunRecord}
      {node : NodeId} {digest : String} (now : Nat) (moves : G.moves)
      (found : machine.store.arrays[id]? = some record)
      (admitted : machine.store.jobs.runs[id]? = some run)
      (unknown : run.unknownOwners.contains node = true)
      (current : machine.store.ownerFingerprint P id node = some digest)
      (allowed : G.replays id node digest)
      : Change P ids G machine
        { machine with
          store := (machine.store.acknowledge id run node).settle id
            { record with state := (record.state.requeueNode node).2 } now }
  | unknown {machine : Machine} {id : Nat} {record : TaskArrayRecord} {run : RunRecord}
      {node : NodeId} (moves : G.moves) (found : machine.store.arrays[id]? = some record)
      (admitted : machine.store.jobs.runs[id]? = some run)
      (holds : (record.state.heldBy node).isSome = true)
      (few : run.unknownOwners.size < 64 ∨ run.unknownOwners.contains node = true)
      : Change P ids G machine
        { machine with store :=
          { machine.store with
            jobs := machine.store.jobs.recordRun id
              { run with unknownOwners := run.unknownOwners.insert node } } }
  | quota {machine : Machine} {id : Nat} {record : TaskArrayRecord}
      (reason : Option QuotaError) (moves : G.moves)
      (found : machine.store.arrays[id]? = some record)
      : Change P ids G machine
        { machine with store :=
          { machine.store with
            arrays := machine.store.arrays.insert id { record with quotaBlocked := reason } } }
  | observe {machine : Machine} {minute : Int} (nonneg : 0 ≤ minute)
      : Change P ids G machine
        { machine with store :=
          { machine.store with
            cronObservedMinute :=
              laterMinute machine.store.cronObservedMinute (some minute) } }
  | stopDefinition {machine : Machine} {name ns : String} {forget : Bool} {jobs : JobCatalog}
      (stopped : machine.store.jobs.stop ns name forget = .ok jobs)
      : Change P ids G machine { machine with store := { machine.store with jobs } }
  | begin {machine : Machine} {operationId : String} {config : Config} (now : Nat)
      (deploys : G.deploys) (beginnable : Beginnable P machine.store operationId config)
      : Change P ids G machine
        { machine with store :=
          machine.store.begin operationId { config, submittedAtEpochSecs := now } }
  | deployment {machine : Machine} {operationId : String} {record next : DeploymentRecord}
      (deploys : G.deploys) (found : machine.store.deployments[operationId]? = some record)
      (step : DeploymentStep machine.store operationId record next)
      : Change P ids G machine (machine.putDeployment operationId next)

abbrev Changes (P : Platform) (ids : Nat → Nat) (G : Guard) : Machine → Machine → Prop :=
  Relation.ReflTransGen (Change P ids G)

/-- Every id that the store mentions has been taken from the supply, and a run that a manifest
counts among its profiles answers the manifest's request. -/
structure Known (ids : Nat → Nat) (machine : Machine) : Prop where
  arrays : ∀ {id : Nat} {record : TaskArrayRecord},
    machine.store.arrays[id]? = some record → ∃ index < machine.allocated, ids index = id
  runs : ∀ {id : Nat} {run : RunRecord},
    machine.store.jobs.runs[id]? = some run → ∃ index < machine.allocated, ids index = id
  manifests : ∀ {id : Nat} {manifest : TaskManifest},
    machine.store.manifests[id]? = some manifest → ∃ index < machine.allocated, ids index = id
  children : ∀ {id : Nat},
    id ∈ machine.store.children → ∃ index < machine.allocated, ids index = id
  attributed : ∀ {parent child : Nat} {manifest : TaskManifest} {run : RunRecord},
    machine.store.manifests[parent]? = some manifest
    → child ∈ manifest.cohorts.map Prod.snd
    → machine.store.jobs.runs[child]? = some run
    → ∃ requestId digest,
        manifest.request = some (requestId, digest) ∧ run.trigger = .manual requestId

-- Effects

open BTreeMap JobCatalog TaskArrays

variable {P : Platform} {ids : Nat → Nat} {G : Guard}

variable {machine next : Machine}

theorem Change.allocated_le (change : Change P ids G machine next)
    : machine.allocated ≤ next.allocated := by
  cases change <;> first | exact le_rfl | exact Nat.le_succ _

/-- What every change keeps, a sequence of changes keeps. -/
theorem Changes.preserves {motive : Machine → Prop}
    (step : ∀ machine next, motive machine → Change P ids G machine next → motive next)
    (changes : Changes P ids G machine next)
    : motive machine → motive next := by
  intro holds
  induction changes with
  | refl => exact holds
  | tail _ change ih => exact step _ _ ih change

theorem Changes.allocated_le (changes : Changes P ids G machine next)
    : machine.allocated ≤ next.allocated :=
  changes.preserves (motive := fun later => machine.allocated ≤ later.allocated)
    (fun _ _ before change => before.trans change.allocated_le) le_rfl

namespace TaskArrays

/-- Admitting a run adds its provenance and keeps that of every other retained array. -/
theorem admitRun_runs {store : TaskArrays} {id : Nat} {record : TaskArrayRecord}
    {run other : RunRecord} {at_ : Nat}
    (found : (store.admitRun id record run).jobs.runs[at_]? = some other)
    : (at_ = id ∧ other = run) ∨ store.jobs.runs[at_]? = some other := by
  simp only [admitRun, retainRuns, recordRun, get_filter,
    Option.filter_eq_some_iff] at found
  rcases get_insert_cases found.1 with ⟨rfl, rfl⟩ | before
  · exact .inl ⟨rfl, rfl⟩
  · exact .inr before

/-- The other runs stay, provided their arrays are retained. -/
theorem admitRun_runs_of_ne {store : TaskArrays} {id : Nat} (record : TaskArrayRecord)
    (run : RunRecord) {other : Nat} (different : other ≠ id) {array : TaskArrayRecord}
    (retained : store.arrays[other]? = some array)
    : (store.admitRun id record run).jobs.runs[other]? = store.jobs.runs[other]? := by
  simp only [admitRun, JobCatalog.retainRuns, JobCatalog.recordRun, get_filter]
  rw [get_insert_ne _ _ (Ne.symm different)]
  have kept : (store.arrays.insert id record).contains other = true := by
    rw [contains_iff, get_insert_ne _ _ (Ne.symm different)]
    exact ⟨array, retained⟩
  cases store.jobs.runs[other]? <;> simp [kept]

end TaskArrays

-- Arrays

/-- What one change may do to an array that is retained before and after it. -/
inductive ArrayStep (G : Guard) (record : TaskArrayRecord) : TaskArrayRecord → Prop where
  | same : ArrayStep G record record
  | settled {updated : TaskArrayRecord} (now : Nat) (moves : G.moves)
      (step : RecordStep G True record updated)
      : ArrayStep G record (TaskArrays.withReceipt updated now)
  | noted (reason : Option QuotaError) (moves : G.moves)
      : ArrayStep G record { record with quotaBlocked := reason }

variable {record : TaskArrayRecord} {id : Nat} {machine next : Machine}

theorem RecordStep.mono {requeues : Prop} {updated : TaskArrayRecord}
    (step : RecordStep G requeues record updated)
    : RecordStep G True record updated := by
  cases step with
  | run ops plain => exact .run ops plain
  | stop reason why asked allowed => exact .stop reason why asked allowed
  | requeue node _ => exact .requeue node trivial

section

variable (change : Change P ids G machine next)
include change

/-- An array of the next store comes from one of this store, or is new under the next id; by
cases on the change. -/
theorem Change.array_cases (present : next.store.arrays[id]? = some record)
    : (∃ before, machine.store.arrays[id]? = some before ∧ ArrayStep G before record)
      ∨ (id = ids machine.allocated
        ∧ next.allocated = machine.allocated + 1
        ∧ ((∃ run source, Admissible P G machine.store record run source)
          ∨ Enrollable P machine.store record)) := by
  -- Most changes leave the arrays alone.
  have unchanged : next.store.arrays = machine.store.arrays
      → ∃ before, machine.store.arrays[id]? = some before ∧ ArrayStep G before record :=
    fun same => ⟨record, same ▸ present, .same⟩
  cases change with
  | prune now retention =>
    exact .inl ⟨record, machine.store.pruneWithin_arrays _ _ present, .same⟩
  | @admitRun admitted run source admissible =>
    rcases get_insert_cases present with ⟨rfl, rfl⟩ | before
    · exact .inr ⟨rfl, rfl, .inl ⟨run, source, admissible⟩⟩
    · exact .inl ⟨record, before, .same⟩
  | @enrol enrolled enrollable =>
    rcases get_insert_cases present with ⟨rfl, rfl⟩ | before
    · exact .inr ⟨rfl, rfl, .inr enrollable⟩
    · exact .inl ⟨record, before, .same⟩
  | @advance other before updated now moves found step =>
    simp only [TaskArrays.settle_arrays] at present
    split at present
    · rename_i same
      cases present
      exact .inl ⟨before, same ▸ found, .settled now moves step.mono⟩
    · exact .inl ⟨record, present, .same⟩
  | @replay other before run node digest now moves found admitted unknown current allowed =>
    simp only [settle_arrays] at present
    split at present
    · rename_i same
      cases present
      exact .inl ⟨before, same ▸ found, .settled now moves (.requeue node trivial)⟩
    · exact .inl ⟨record, present, .same⟩
  | @quota other before reason moves found =>
    rcases get_insert_cases present with ⟨rfl, rfl⟩ | kept
    · exact .inl ⟨before, found, .noted reason moves⟩
    · exact .inl ⟨record, kept, .same⟩
  | _ => exact .inl (unchanged rfl)

-- Runs

/-- The provenance of a run changes at most in its unknown owners, and a new run comes with the
array under the next id; by cases on the change. -/
theorem Change.run_cases {run : RunRecord}
    (present : next.store.jobs.runs[id]? = some run)
    : (∃ before owners,
        machine.store.jobs.runs[id]? = some before
        ∧ run = { before with unknownOwners := owners })
      ∨ (id = ids machine.allocated
        ∧ next.allocated = machine.allocated + 1
        ∧ ∃ record source,
            Admissible P G machine.store record run source
            ∧ next.store.arrays[id]? = some record) := by
  have unchanged : next.store.jobs.runs = machine.store.jobs.runs
      → ∃ before owners,
          machine.store.jobs.runs[id]? = some before
          ∧ run = { before with unknownOwners := owners } :=
    fun same => ⟨run, run.unknownOwners, same ▸ present, rfl⟩
  cases change with
  | prune now retention =>
    exact .inl ⟨run, _, ((machine.store.pruneWithin_runs _ _).mp present).1, rfl⟩
  | define nsLabel nameLabel recorded allowed =>
    obtain ⟨_, _, rfl⟩ := recorded.started
    exact .inl (unchanged rfl)
  | @skip name ns record minute found claimed =>
    refine .inl (unchanged ?_)
    simp only [JobCatalog.recordSkip, JobCatalog.modify, found]
  | @admitRun record admitted source admissible =>
    rcases admitRun_runs present with ⟨rfl, rfl⟩ | before
    · exact .inr ⟨rfl, rfl, record, source, admissible, get_insert_self _ _ _⟩
    · exact .inl ⟨run, _, before, rfl⟩
  | @advance other before updated now moves found step =>
    simp only [settle_runs] at present
    split at present
    · rename_i same
      obtain ⟨earlier, retained, rfl⟩ := Option.map_eq_some_iff.mp present
      exact .inl ⟨earlier, _, same ▸ retained, rfl⟩
    · exact .inl ⟨run, _, present, rfl⟩
  | @replay other before earlier node digest now moves found admitted unknown current allowed =>
    simp only [settle_runs, acknowledge, recordRun, get_insert_self] at present
    split at present
    · rename_i same
      cases present
      exact .inl ⟨earlier, _, same ▸ admitted, rfl⟩
    · rename_i different
      rw [get_insert_ne _ _ different] at present
      exact .inl ⟨run, _, present, rfl⟩
  | @unknown other record earlier node moves found admitted holds few =>
    rcases get_insert_cases present with ⟨rfl, rfl⟩ | before
    · exact .inl ⟨earlier, _, admitted, rfl⟩
    · exact .inl ⟨run, _, before, rfl⟩
  | stopDefinition stopped => exact .inl (unchanged (JobCatalog.stop_runs stopped))
  | _ => exact .inl (unchanged rfl)

/-- The provenance of a run stays for as long as its array is retained, and its unknown owners
change only where arrays are moved on. -/
theorem Change.run_kept {run : RunRecord}
    {after : TaskArrayRecord} (admitted : machine.store.jobs.runs[id]? = some run)
    (found : machine.store.arrays[id]? = some record)
    (retained : next.store.arrays[id]? = some after) (old : id ≠ ids machine.allocated)
    : ∃ owners,
        next.store.jobs.runs[id]? = some { run with unknownOwners := owners }
        ∧ (owners = run.unknownOwners ∨ G.moves) := by
  have unchanged : next.store.jobs.runs[id]? = machine.store.jobs.runs[id]?
      → ∃ owners,
          next.store.jobs.runs[id]? = some { run with unknownOwners := owners }
          ∧ (owners = run.unknownOwners ∨ G.moves) :=
    fun same => ⟨run.unknownOwners, same.trans admitted, .inl rfl⟩
  cases change with
  | prune now retention =>
    exact ⟨_, (machine.store.pruneWithin_runs _ _).mpr ⟨admitted, after, retained⟩, .inl rfl⟩
  | define nsLabel nameLabel recorded allowed =>
    obtain ⟨_, _, rfl⟩ := recorded.started
    exact unchanged rfl
  | @skip name ns before minute found claimed =>
    refine unchanged ?_
    simp only [JobCatalog.recordSkip, JobCatalog.modify, found]
  | admitRun admissible =>
    exact unchanged (admitRun_runs_of_ne _ _ old found)
  | @advance other before updated now moves _ step =>
    rw [settle_runs]
    split
    · rename_i same
      rw [same, admitted]
      exact ⟨_, rfl, .inr moves⟩
    · exact ⟨_, admitted, .inl rfl⟩
  | @replay other before earlier node digest now moves _ named unknown current allowed =>
    rw [settle_runs]
    simp only [acknowledge, recordRun, get_insert_self]
    split
    · rename_i same
      subst same
      rw [named] at admitted
      cases admitted
      exact ⟨_, rfl, .inr moves⟩
    · rename_i different
      rw [get_insert_ne _ _ different]
      exact ⟨_, admitted, .inl rfl⟩
  | @unknown other array earlier node moves _ named holds few =>
    simp only [recordRun, get_insert]
    split
    · rename_i same
      subst same
      rw [named] at admitted
      cases admitted
      exact ⟨_, rfl, .inr moves⟩
    · exact ⟨_, admitted, .inl rfl⟩
  | stopDefinition stopped => exact unchanged (by rw [stop_runs stopped])
  | _ => exact unchanged rfl

/-- An array without its terminal receipt is retained. -/
theorem Change.unfinished_kept (found : machine.store.arrays[id]? = some record)
    (unfinished : record.terminalAtEpochSecs = none)
    : ∃ after, next.store.arrays[id]? = some after := by
  cases change with
  | prune now retention =>
    exact ⟨record, machine.store.pruneWithin_unfinished _ _ found unfinished⟩
  | admitRun | enrol | advance | replay | quota =>
    show ∃ after, (machine.store.arrays.insert _ _)[id]? = some after
    rw [get_insert]
    split
    · exact ⟨_, rfl⟩
    · exact ⟨record, found⟩
  | _ => exact ⟨record, found⟩

-- Manifests

/-- A manifest is as it was, or was filed under a reserved id. -/
theorem Change.manifest_cases {manifest : TaskManifest}
    (present : next.store.manifests[id]? = some manifest)
    : machine.store.manifests[id]? = some manifest
      ∨ ∃ index,
          G.base ≤ index
          ∧ index < machine.allocated
          ∧ ids index = id
          ∧ ∃ requestId,
              Fileable G ids machine manifest requestId
              ∧ next.store.jobs.runs = machine.store.jobs.runs
              ∧ next.store.arrays = machine.store.arrays
              ∧ next.store.arrays[id]? = none := by
  cases change with
  | prune now retention => exact .inl (machine.store.pruneWithin_manifests _ _ present)
  | @file index filed requestId recent taken noArray noManifest fileable =>
    rcases get_insert_cases present with ⟨rfl, rfl⟩ | before
    · exact .inr ⟨index, recent, taken, rfl, requestId, fileable, rfl, rfl, noArray⟩
    · exact .inl before
  | _ => exact .inl present

end

-- Deployments

/-- Forgetting deployments never adds one. -/
theorem TaskArrays.get_forgotten (forgotten : List String)
    (deployments : BTreeMap String DeploymentRecord) (operationId : String)
    : (forgotten.foldl (fun deployments id => deployments.erase id) deployments)[operationId]?
      = if operationId ∈ forgotten then none else deployments[operationId]? := by
  induction forgotten generalizing deployments with
  | nil => simp
  | cons head rest ih =>
    rw [List.foldl_cons, ih, get_erase]
    by_cases here : head = operationId
    · simp [here]
    · simp only [here, if_false, List.mem_cons, Ne.symm here, false_or]

/-- A deployment's record is as it was, is new, or has taken one step. -/
theorem Change.deployment_cases (change : Change P ids G machine next) {operationId : String}
    {record : DeploymentRecord} (present : next.store.deployments[operationId]? = some record)
    : machine.store.deployments[operationId]? = some record
      ∨ (∃ config now,
          Beginnable P machine.store operationId config
          ∧ record = { config, submittedAtEpochSecs := now }
          ∧ next.store = machine.store.begin operationId record)
      ∨ ∃ before,
          machine.store.deployments[operationId]? = some before
          ∧ DeploymentStep machine.store operationId before record
          ∧ next = machine.putDeployment operationId record := by
  cases change with
  | prune now retention =>
    rw [pruneWithin_deployments] at present
    exact .inl present
  | @begin begun config now deploys beginnable =>
    rcases get_insert_cases present with ⟨rfl, rfl⟩ | before
    · exact .inr (.inl ⟨config, now, beginnable, rfl, rfl⟩)
    · rw [TaskArrays.get_forgotten] at before
      split at before
      · cases before
      · exact .inl before
  | @deployment moved before updated deploys found step =>
    rcases get_insert_cases present with ⟨rfl, rfl⟩ | kept
    · exact .inr (.inr ⟨before, found, step, rfl⟩)
    · exact .inl kept
  | _ => exact .inl present

-- Ids are taken once

/-- The next id names nothing yet. -/
structure Unused (store : TaskArrays) (id : Nat) : Prop where
  noArray : store.arrays[id]? = none
  noRun : store.jobs.runs[id]? = none
  noManifest : store.manifests[id]? = none
  noChild : id ∉ store.children

/-- An id that the store has not taken names nothing. -/
theorem Known.untaken {machine : Machine} {id : Nat} (known : Known ids machine)
    (untaken : ¬∃ index < machine.allocated, ids index = id)
    : machine.store.arrays[id]? = none
      ∧ machine.store.jobs.runs[id]? = none
      ∧ machine.store.manifests[id]? = none := by
  refine ⟨?_, ?_, ?_⟩
  all_goals refine Option.eq_none_iff_forall_ne_some.mpr fun _ found => untaken ?_
  · exact known.arrays found
  · exact known.runs found
  · exact known.manifests found

theorem Known.unused {machine : Machine} (known : Known ids machine) (fresh : FreshIds ids)
    {index : Nat} (later : machine.allocated ≤ index)
    : Unused machine.store (ids index) := by
  have untaken : ¬∃ taken < machine.allocated, ids taken = ids index := by
    rintro ⟨taken, early, same⟩
    exact (early.trans_le later).ne (fresh.distinct same)
  obtain ⟨noArray, noRun, noManifest⟩ := known.untaken untaken
  exact ⟨noArray, noRun, noManifest, fun child => untaken (known.children child)⟩

theorem known_initial : Known ids {} :=
  ⟨by simp, by simp, by simp, by simp [children], by simp⟩

/-- A change mentions only ids that were mentioned before or that it takes, and it files a run
only under the manifest of its request. -/
theorem Change.known {machine next : Machine} (fresh : FreshIds ids) (known : Known ids machine)
    (change : Change P ids G machine next)
    : Known ids next := by
  have more := change.allocated_le
  have still : ∀ {id : Nat}, (∃ index < machine.allocated, ids index = id)
      → ∃ index < next.allocated, ids index = id := by
    rintro _ ⟨index, early, rfl⟩
    exact ⟨index, early.trans_le more, rfl⟩
  refine ⟨?_, ?_, ?_, ?_, ?_⟩
  · intro id record present
    rcases change.array_cases present with ⟨_, found, _⟩ | ⟨rfl, taken, _⟩
    · exact still (known.arrays found)
    · exact ⟨machine.allocated, by omega, rfl⟩
  · intro id run present
    rcases change.run_cases present with ⟨_, _, found, _⟩ | ⟨rfl, taken, _⟩
    · exact still (known.runs found)
    · exact ⟨machine.allocated, by omega, rfl⟩
  · intro id manifest present
    rcases change.manifest_cases present with found | ⟨index, _, taken, rfl, _⟩
    · exact still (known.manifests found)
    · exact still ⟨index, taken, rfl⟩
  · intro id child
    obtain ⟨parent, manifest, present, listed⟩ := mem_children.mp child
    rcases change.manifest_cases present with found | ⟨_, _, _, _, requestId, fileable, _⟩
    · exact still (known.children (mem_children.mpr ⟨parent, manifest, found, listed⟩))
    · obtain ⟨cohort, member, rfl⟩ := List.mem_map.mp listed
      exact still (fileable.taken cohort member)
  · intro parent child manifest run present listed admitted
    rcases change.manifest_cases present with found | ⟨_, _, _, _, requestId, fileable, sameRuns, _⟩
    · rcases change.run_cases admitted with ⟨_, _, retained, rfl⟩ | ⟨rfl, _⟩
      · obtain ⟨requestId, digest, asked, answered⟩ := known.attributed found listed retained
        exact ⟨requestId, digest, asked, answered⟩
      · exact absurd (mem_children.mpr ⟨parent, manifest, found, listed⟩)
          (known.unused fresh le_rfl).noChild
    · obtain ⟨cohort, member, rfl⟩ := List.mem_map.mp listed
      obtain ⟨digest, asked⟩ := fileable.request
      rw [sameRuns] at admitted
      refine ⟨requestId, digest, asked, ?_⟩
      cases kind : manifest.commonJobs with
      | true => exact ((fileable.common kind cohort member).1 run admitted).2
      | false =>
        rw [(fileable.profiles kind cohort member).2] at admitted
        cases admitted

theorem Known.changes {machine next : Machine} (fresh : FreshIds ids)
    (known : Known ids machine) (changes : Changes P ids G machine next)
    : Known ids next :=
  Changes.preserves (fun _ _ before change => change.known fresh before) changes known

end Reliaburger
