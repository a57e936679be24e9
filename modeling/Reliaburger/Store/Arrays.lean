import Reliaburger.Store.Deployments
import Reliaburger.Store.Submission

/-! Every write, accepted or refused, is a sequence of elementary changes, and so is every run of
writes. Hence what holds of every retained array, and of what an id names at two times.
-/

namespace Reliaburger

open TaskArrays TaskArrayState Checks BTreeMap JobCatalog

variable {P : Platform} {ids : Nat → Nat} {G : Guard}

-- What a write asks of a guard

/-- Whether a write may admit runs of definitions. -/
def TaskArrayWrite.isAdmission : TaskArrayWrite → Bool
  | job _ | registerJobs .. | deployBegin .. | deployCommitted .. => true
  | _ => false

/-- Whether a write may change the record of a deployment. -/
def TaskArrayWrite.isDeployment : TaskArrayWrite → Bool
  | deployBegin .. | deployCommitted .. | deployCancel .. | deployRelease .. => true
  | _ => false

/-- The write may admit a run of the job on account of `trigger`. -/
def TaskArrayWrite.Admits (store : TaskArrays) (ns name : String) (trigger : RunTrigger)
    : TaskArrayWrite → Prop
  | job (.put other home _ cause _) => cause = some trigger ∧ home = ns ∧ other = name
  | job (.fire other home _ minute _) => .cron minute = trigger ∧ home = ns ∧ other = name
  | registerJobs requestId _ _ => .manual requestId = trigger
  | deployBegin operationId config _ =>
    ∃ spec,
      .hook operationId = trigger
      ∧ store.deployments[operationId]? = none
      ∧ config.job[name]? = some spec
      ∧ spec.runBefore ≠ []
      ∧ spec.namespace = ns
  | deployCommitted operationId _ =>
    ∃ record spec,
      .hook operationId = trigger
      ∧ store.deployments[operationId]? = some record
      ∧ record.appsCommitted = false
      ∧ record.config.job[name]? = some spec
      ∧ spec.runBefore = []
      ∧ spec.schedule = none
      ∧ spec.namespace = ns
  | _ => False

theorem TaskArrayWrite.Admits.isAdmission {store : TaskArrays} {ns name : String}
    {trigger : RunTrigger} {write : TaskArrayWrite} (admits : write.Admits store ns name trigger)
    : write.isAdmission = true := by
  cases write <;> first | rfl | exact admits.elim

/-- The write gives a job a schedule at `now`. -/
def TaskArrayWrite.Schedules (store : TaskArrays) (ns name : String) (now : Nat)
    : TaskArrayWrite → Prop
  | job (.put other home definition _ time) =>
    definition.cron.isSome = true ∧ home = ns ∧ other = name ∧ time = now
  | deployCommitted operationId time =>
    ∃ record spec,
      store.deployments[operationId]? = some record
      ∧ record.appsCommitted = false
      ∧ record.config.job[name]? = some spec
      ∧ spec.runBefore = []
      ∧ spec.schedule ≠ none
      ∧ spec.namespace = ns
      ∧ time = now
  | _ => False

namespace TaskArrays

/-- The arrays that a write stops, as far as they are retained. The writes of a tick stop arrays
one after the other and are not counted here. -/
def stoppedBy (store : TaskArrays) : TaskArrayWrite → List Nat
  | .cancel batchId _ => [batchId]
  | .cancelManifest batchId _ =>
    (store.manifests[batchId]?.map (fun manifest => manifest.cohorts.map Prod.snd)).getD []
  | .stopDefinition name ns _ _ => store.runsOf name ns
  | .deployCancel operationId _ =>
    match store.deployments[operationId]? with
    | some record => if record.completed then [] else record.runs
    | none => []
  | .progress (.unrunnable batchId _ _) => [batchId]
  | _ => []

/-- The guard allows everything that a write asks for. -/
def Permits (G : Guard) (store : TaskArrays) (write : TaskArrayWrite) : Prop :=
  store.MayStop G (store.stoppedBy write)
  ∧ match write with
    | .tick writes =>
      ∀ progress,
        writes.mapM TaskArrayWrite.progress? = some progress → store.PermitsTick G progress
    | .job write => Machine.PermitsJob G write
    | .progress write => Machine.PermitsProgress G store write
    | .deployBegin operationId config _ =>
      G.deploys ∧ Machine.PermitsBegin G store operationId config
    | .deployCommitted operationId now =>
      G.deploys ∧ Machine.PermitsCommit G store operationId now
    | .deployCancel .. | .deployRelease .. => G.deploys
    | .replay batchId node digest _ => G.moves ∧ G.replays batchId node digest
    | .registerJobs requestId jobs _ =>
      (∀ ns name, G.admits ns name (.manual requestId))
      ∧ (G.whole → Machine.Unfinished store requestId jobs)
    | _ => True

end TaskArrays

-- Transactions

/-- Ids may be taken without being used. -/
theorem reserve_changes (machine : Machine) {allocated : Nat}
    (more : machine.allocated ≤ allocated)
    : Changes P ids G machine { machine with allocated } := by
  induction allocated, more using Nat.le_induction with
  | base => exact .refl
  | succ allocated _ ih => exact ih.tail .reserve

namespace Machine

section

variable (fresh : FreshIds ids) (machine : Machine) (known : Known ids machine)
  (base : G.base ≤ machine.allocated) (write : TaskArrayWrite)
  (permits : machine.store.Permits G write)
include fresh known base permits

theorem applyDeployment_changes
    : Changes P ids G machine (machine.applyDeployment P ids write).2 := by
  obtain ⟨stops, asks⟩ := permits
  unfold applyDeployment
  split
  · exact registerJobs_changes fresh machine known base _ asks.1 _ _ asks.2
  · exact (deployBegin_changes fresh asks.1 machine _ _ _ asks.2).1
  · exact (deployCommitted_changes fresh asks.1 machine _ _ asks.2).1
  · refine deployCancel_changes ids asks machine _ _ (fun record found unsettled => ?_)
    simpa [stoppedBy, found, unsettled] using stops
  · exact deployRelease_changes ids asks machine _
  · exact .refl

theorem applyTransaction_changes
    : Changes P ids G machine (machine.applyTransaction P ids write).2 := by
  have changed := applyDeployment_changes (P := P) fresh machine known base write permits
  unfold applyTransaction
  split
  · exact .refl
  split
  · rename_i applied
    rw [applied] at changed
    exact reserve_changes machine changed.allocated_le
  · rename_i applied
    rw [applied] at changed
    exact changed

end

-- Every write

variable {machine : Machine}

/-- A published result is the change that led to it. -/
theorem publish_changes
    {result : Except TaskArrayStoreError (TaskArrayApplied × TaskArrays)}
    (changes : ∀ answer store,
      result = .ok (answer, store) → Change P ids G machine { machine with store })
    : Changes P ids G machine (machine.publish result).2 := by
  cases result with
  | error refused => exact .refl
  | ok outcome => exact .single (changes outcome.1 outcome.2 rfl)

/-- Every write is a sequence of changes, by cases on the write. -/
theorem apply_changes (fresh : FreshIds ids) (machine : Machine) (known : Known ids machine)
    (base : G.base ≤ machine.allocated) (write : TaskArrayWrite)
    (permits : machine.store.Permits G write)
    : Changes P ids G machine (machine.apply P ids write).2 := by
  have transaction := applyTransaction_changes (P := P) fresh machine known base write permits
  obtain ⟨stops, asks⟩ := permits
  cases write with
  | stopDefinition name ns forget now =>
    exact stopDefinition_changes ids machine name ns forget now stops
  | job write => exact applyJob_changes machine asks
  | cronObserve minute =>
    simp only [apply]
    split
    · exact .refl
    · rename_i nonneg
      exact .single (.observe (Int.not_lt.mp nonneg))
  | prune now retention => exact .single (.prune now retention)
  | replay batchId node digest now =>
    refine publish_changes fun answer store replayed => ?_
    obtain ⟨_, _, admitted, unknown, current, found, rfl⟩ := replay_ok replayed
    exact .replay now asks.1 found admitted unknown current asks.2
  | registerManifest name ns requestId cohorts submitted =>
    simp only [apply]
    split
    · exact .refl
    · exact registerManifest_changes fresh machine known base name ns requestId cohorts submitted
  | cancelManifest batchId now =>
    refine cancelManifest_changes ids machine batchId now (fun manifest found => ?_)
    simpa [stoppedBy, found] using stops
  | register name ns template spec submitted =>
    simp only [apply]
    split
    · exact .refl
    · exact register_changes machine name ns template spec submitted
  | cancel batchId now =>
    refine publish_changes (fun answer store cancelled => ?_)
    cases advanced : machine.store.advance batchId cancelRecord now with
    | error refused => simp [advanced, Except.map] at cancelled
    | ok next =>
      simp only [advanced, Except.map, Except.ok.injEq, Prod.mk.injEq] at cancelled
      rw [← cancelled.2]
      exact cancel_changes stops advanced
  | progress write =>
    exact publish_changes (fun answer store applied => applyProgress_changes asks applied)
  | tick writes =>
    simp only [apply, tick]
    split
    · rename_i progress listed
      split
      · exact .refl
      · exact applyTick_changes ids progress machine (asks progress listed)
    · exact .refl
  | _ => exact transaction

-- Runs

/-- Every write of a run meets `condition` on the store it is applied to. -/
def Meets (P : Platform) (ids : Nat → Nat) (condition : TaskArrays → TaskArrayWrite → Prop)
    : Machine → List TaskArrayWrite → Prop
  | _, [] => True
  | machine, write :: rest =>
    condition machine.store write ∧ Meets P ids condition (machine.apply P ids write).2 rest

instance {condition : TaskArrays → TaskArrayWrite → Prop}
    [decidable : ∀ store write, Decidable (condition store write)]
    : ∀ (machine : Machine) (writes : List TaskArrayWrite),
      Decidable (Meets P ids condition machine writes)
  | _, [] => .isTrue trivial
  | machine, write :: rest =>
    @instDecidableAnd _ _ (decidable machine.store write)
      (instDecidableMeets (machine.apply P ids write).2 rest)

/-- The guard leaves the writes of ticks alone. -/
theorem permitsTick_of (moves : G.moves) (stops : ∀ state, G.stops state) (store : TaskArrays)
    (writes : List ProgressWrite)
    : store.PermitsTick G writes := by
  induction writes generalizing store with
  | nil => trivial
  | cons write rest ih =>
    refine ⟨⟨moves, ?_⟩, ?_⟩
    · cases write <;> simp [stops]
    split
    · exact ih _
    · exact ih store

/-- What a guard has to allow so that a write is free to do all it does. -/
structure Allows (G : Guard) (store : TaskArrays) (write : TaskArrayWrite) : Prop where
  admits : ∀ ns name trigger,
    write.Admits store ns name trigger → G.admits ns name trigger := by intros; trivial
  moves : write.isAdmission = false → G.moves := by intros; trivial
  deploys : write.isDeployment = true → G.deploys := by intros; trivial
  stops : ∀ state, G.stops state := by intros; trivial
  schedules : ∀ ns name now, write.Schedules store ns name now → G.schedules ns name now := by
    intros; trivial
  fires : ∀ name ns revision minute now,
    write = .job (.fire name ns revision minute now) → G.fires ns name minute := by intros; trivial
  replays : ∀ id node digest now,
    write = .replay id node digest now → G.replays id node digest := by intros; trivial
  partly : ¬ G.whole := by intro whole; exact whole

theorem permits_of {store : TaskArrays} {write : TaskArrayWrite} (allows : Allows G store write)
    : store.Permits G write := by
  obtain ⟨admits, moves, deploys, stops, schedules, fires, replays, partly⟩ := allows
  cases write with
  | registerJobs requestId jobs now =>
    exact ⟨by simp [TaskArrays.MayStop, stoppedBy], fun ns name => admits ns name _ rfl,
      fun whole => absurd whole partly⟩
  | deployBegin operationId config now =>
    exact ⟨by simp [TaskArrays.MayStop, stoppedBy], deploys rfl,
      fun name spec absent declared isHook =>
        admits _ _ _ ⟨spec, rfl, absent, declared, isHook, rfl⟩⟩
  | deployCommitted operationId now =>
    refine ⟨by simp [TaskArrays.MayStop, stoppedBy], deploys rfl,
      fun record name spec found uncommitted declared ordinary => ⟨fun unscheduled => ?_,
        fun scheduled => ?_⟩⟩
    · exact admits _ _ _ ⟨record, spec, rfl, found, uncommitted, declared, ordinary, unscheduled,
        rfl⟩
    · exact schedules _ _ _ ⟨record, spec, found, uncommitted, declared, ordinary, scheduled, rfl,
        rfl⟩
  | deployCancel | deployRelease => exact ⟨fun _ _ _ _ => ⟨moves rfl, stops _⟩, deploys rfl⟩
  | job write =>
    refine ⟨by simp [TaskArrays.MayStop, stoppedBy], ?_⟩
    cases write with
    | put name ns definition trigger now =>
      exact ⟨fun cause asked => admits ns name cause ⟨asked, rfl, rfl⟩,
        fun scheduled => schedules ns name now ⟨scheduled, rfl, rfl, rfl⟩⟩
    | fire name ns revision minute now =>
      exact ⟨admits ns name _ ⟨rfl, rfl, rfl⟩, fires name ns revision minute now rfl⟩
  | progress write =>
    refine ⟨fun _ _ _ _ => ⟨moves rfl, stops _⟩, moves rfl, ?_⟩
    cases write <;> simp [stops]
  | tick writes =>
    exact ⟨by simp [TaskArrays.MayStop, stoppedBy],
      fun progress _ => permitsTick_of (moves rfl) stops store progress⟩
  | replay id node digest now =>
    exact ⟨by simp [TaskArrays.MayStop, stoppedBy], moves rfl, replays id node digest now rfl⟩
  | _ => exact ⟨fun _ _ _ _ => ⟨moves rfl, stops _⟩, trivial⟩

theorem permits_free (base : Nat) (store : TaskArrays) (write : TaskArrayWrite)
    : store.Permits (.free base) write :=
  permits_of {}

/-- Every id the store mentions was taken from the supply, along every run. -/
theorem Known.apply (fresh : FreshIds ids) (known : Known ids machine)
    (write : TaskArrayWrite)
    : Known ids (machine.apply P ids write).2 :=
  known.changes fresh (apply_changes (G := .free 0) fresh machine known (Nat.zero_le _) write
    (permits_free 0 machine.store write))

/-- A tick is refused as a whole, or does what its writes do one after the other. -/
theorem tick_run (machine : Machine) (writes : List TaskArrayWrite)
    : (machine.apply P ids (.tick writes)).2 = machine
      ∨ (machine.apply P ids (.tick writes)).2 = run P ids machine writes := by
  have each : ∀ progress,
      writes.mapM TaskArrayWrite.progress? = some progress
      → run P ids machine writes
        = { machine with store := (machine.store.applyTick progress).2 } := by
    induction writes generalizing machine with
    | nil =>
      rintro progress ⟨⟩
      rfl
    | cons write rest ih =>
      intro progress carried
      simp only [List.mapM_cons, Option.bind_eq_bind, Option.bind_eq_some_iff,
        Option.pure_def, Option.some.injEq] at carried
      obtain ⟨first, isFirst, later, isLater, rfl⟩ := carried
      have isProgress : write = .progress first := by
        cases write <;> cases isFirst
        rfl
      subst isProgress
      show run P ids (machine.publish (machine.store.applyProgress first)).2 rest = _
      rw [ih _ later isLater, applyTick]
      cases machine.store.applyProgress first with
      | error refused => rfl
      | ok outcome => rfl
  show (machine.tick writes).2 = machine ∨ (machine.tick writes).2 = _
  unfold tick
  split
  · rename_i progress carried
    split
    · exact .inl rfl
    · exact .inr (each progress carried).symm
  · exact .inl rfl

/-- What the empty store has and every write keeps, a run of writes keeps; by induction on the
writes. -/
theorem Meets.induction (fresh : FreshIds ids)
    {condition : TaskArrays → TaskArrayWrite → Prop} {motive : Machine → Prop}
    (step : ∀ machine write,
      Known ids machine
      → motive machine
      → condition machine.store write
      → motive (machine.apply P ids write).2)
    {writes : List TaskArrayWrite} (known : Known ids machine)
    (initial : motive machine) (meets : Meets P ids condition machine writes)
    : motive (run P ids machine writes) := by
  induction writes generalizing machine with
  | nil => exact initial
  | cons write rest ih =>
    obtain ⟨here, later⟩ := meets
    exact ih (Known.apply fresh known write) (step machine write known initial here) later

theorem meets_trivial (machine : Machine) (writes : List TaskArrayWrite)
    : Meets P ids (fun _ _ => True) machine writes := by
  induction writes generalizing machine with
  | nil => trivial
  | cons write rest ih => exact ⟨trivial, ih _⟩

theorem known_run (fresh : FreshIds ids) (writes : List TaskArrayWrite)
    : Known ids (run P ids {} writes) :=
  Meets.induction (motive := Known ids) fresh (fun _ write known _ _ =>
    Known.apply fresh known write) known_initial known_initial (meets_trivial {} writes)

end Machine

theorem freshIds_succ : FreshIds (· + 1) :=
  ⟨by simp, fun _ _ same => by simpa using same⟩

-- Terminal arrays

variable {record updated : TaskArrayRecord} {state : TaskArrayState}

/-- A step that stops only what may be stopped leaves a terminal state as it is. -/
theorem RecordStep.state_of_terminal {requeues : Prop}
    (spares : ∀ state, G.stops state → state.Stoppable)
    (step : RecordStep G requeues record updated) (terminal : record.state.status.isTerminal = true)
    : updated.state = record.state := by
  cases step with
  | run ops plain =>
    refine run_of_terminal terminal (fun op member => ?_)
    have isPlain := plain op member
    cases op <;> first | rfl | cases isPlain
  | stop reason why asked allowed =>
    exact stop_of_stopped reason
      (stopped_of_stoppable terminal (spares _ allowed))
  | requeue node _ =>
    exact @step_of_terminal record.state terminal (.requeueNode node) (by
      simp [ArrayOp.isStop])

theorem ArrayStep.state_of_terminal (spares : ∀ state, G.stops state → state.Stoppable)
    (step : ArrayStep G record updated) (terminal : record.state.status.isTerminal = true)
    : updated.state = record.state := by
  cases step with
  | same => rfl
  | settled now moves step => rw [withReceipt_state, step.state_of_terminal spares terminal]
  | noted reason moves => rfl

/-- A change that stops only what may be stopped leaves the state of a terminal array as it is
for as long as the array is retained. -/
theorem Change.state_of_terminal {machine next : Machine} (fresh : FreshIds ids)
    (spares : ∀ state, G.stops state → state.Stoppable) (change : Change P ids G machine next)
    {index : Nat} (taken : index < machine.allocated) (terminal : state.status.isTerminal = true)
    (before : ∀ record, machine.store.arrays[ids index]? = some record → record.state = state)
    : ∀ record, next.store.arrays[ids index]? = some record → record.state = state := by
  intro record present
  rcases change.array_cases present with ⟨earlier, found, step⟩ | ⟨isNew, _⟩
  · have same := before earlier found
    rw [step.state_of_terminal spares (same ▸ terminal), same]
  · have := fresh.distinct isNew
    omega

-- Every retained array

/-- Calls led to the array's state, and its receipt says whether that is terminal. -/
structure SoundState (record : TaskArrayRecord) : Prop where
  reachable : record.state.Reachable
  receipt : record.terminalAtEpochSecs.isSome = record.state.status.isTerminal

theorem SoundState.unfinished (sound : SoundState record)
    (active : record.state.status.isTerminal = false)
    : record.terminalAtEpochSecs = none := by
  have receipt := sound.receipt
  rw [active] at receipt
  simpa using receipt

theorem TaskArrayState.Reachable.step {state : TaskArrayState} (reachable : state.Reachable)
    (op : ArrayOp)
    : (state.step op).Reachable := by
  obtain ⟨spec, submitted, initial, ops, created, rfl⟩ := reachable
  exact ⟨spec, submitted, initial, ops ++ [op], created, by simp [run]⟩

theorem TaskArrayState.Reachable.run (reachable : state.Reachable) (ops : List ArrayOp)
    : (state.run ops).Reachable := by
  obtain ⟨spec, submitted, initial, before, created, rfl⟩ := reachable
  exact ⟨spec, submitted, initial, before ++ ops, created, by simp [run]⟩

/-- A step keeps the identity of its array, and its state reachable. -/
theorem RecordStep.kept {requeues : Prop} (step : RecordStep G requeues record updated)
    : updated.name = record.name
      ∧ updated.ns = record.ns
      ∧ updated.template = record.template
      ∧ updated.terminalAtEpochSecs = record.terminalAtEpochSecs
      ∧ (record.state.Reachable → updated.state.Reachable)
      ∧ (record.state.status.isTerminal = true → updated.state.status.isTerminal = true) := by
  cases step with
  | run ops plain =>
    exact ⟨rfl, rfl, rfl, rfl, fun reachable => reachable.run ops,
      fun terminal => run_terminal terminal ops⟩
  | stop reason why asked allowed =>
    refine ⟨rfl, rfl, rfl, rfl, fun reachable => ?_, fun terminal => stop_terminal terminal reason⟩
    cases reason with
    | cancelled => exact reachable.step .cancel
    | unrunnable => exact reachable.step .refuseUnrunnable
    | tooManyFailures => exact absurd rfl asked
  | requeue node _ =>
    exact ⟨rfl, rfl, rfl, rfl, fun reachable => reachable.step (.requeueNode node),
      fun terminal => step_terminal terminal (.requeueNode node)⟩

theorem ArrayStep.soundState (step : ArrayStep G record updated) (sound : SoundState record)
    : SoundState updated := by
  cases step with
  | same => exact sound
  | @settled moved now moves step =>
    obtain ⟨_, _, _, receipt, reachable, terminal⟩ := step.kept
    refine ⟨?_, ?_⟩
    · rw [withReceipt_state]
      exact reachable sound.reachable
    rw [withReceipt_state]
    refine withReceipt_terminal moved now (fun finished => terminal ?_)
    rw [← sound.receipt, ← receipt]
    exact Option.isSome_iff_ne_none.mpr finished
  | noted reason moves => exact ⟨sound.reachable, sound.receipt⟩

theorem soundState_new {name ns : String} {template : JobSpec} {spec : TaskArraySpec} {now : Nat}
    (created : TaskArrayState.new spec now = .ok state)
    : SoundState (TaskArrays.newRecord name ns template state) where
  reachable := ⟨spec, now, state, [], created, rfl⟩
  receipt := (new_running created).symm

theorem Change.soundStates {machine next : Machine} (change : Change P ids G machine next)
    (sound : ∀ (id : Nat) record, machine.store.arrays[id]? = some record → SoundState record)
    : ∀ (id : Nat) record, next.store.arrays[id]? = some record → SoundState record := by
  intro id record present
  rcases change.array_cases present with
    ⟨before, found, step⟩ | ⟨_, _, ⟨_, _, admissible⟩ | enrollable⟩
  · exact step.soundState (sound id before found)
  · obtain ⟨_, _, created, isNew⟩ := admissible.created
    exact isNew ▸ soundState_new created
  · obtain ⟨_, _, _, created, isNew⟩ := enrollable.created
    rw [isNew]
    exact soundState_new created

-- Runs and their arrays

/-- A run's provenance belongs to a retained array of the same job, and its unknown owners are
among the nodes that hold chunks of it. -/
structure Backed (store : TaskArrays) (id : Nat) (run : RunRecord) : Prop where
  array
    : ∃ record,
        store.arrays[id]? = some record
        ∧ record.name = run.name
        ∧ record.ns = run.ns
        ∧ ∀ node ∈ run.unknownOwners, (record.state.heldBy node).isSome = true
  few : run.unknownOwners.size ≤ 64

def AllBacked (store : TaskArrays) : Prop :=
  ∀ (id : Nat) (run : RunRecord), store.jobs.runs[id]? = some run → Backed store id run

/-- Nothing happened to the run or its array. -/
theorem Backed.of_same {store next : TaskArrays} {id : Nat} {run : RunRecord}
    (backed : Backed store id run) (same : next.arrays[id]? = store.arrays[id]?)
    : Backed next id run := by
  obtain ⟨record, found, facts⟩ := backed.array
  exact ⟨⟨record, same.trans found, facts⟩, backed.few⟩

/-- A settled array's run keeps only the unknown owners that still hold something. -/
theorem Backed.settle {store : TaskArrays} {id : Nat} {run : RunRecord}
    {record : TaskArrayRecord} (now : Nat) (name : record.name = run.name)
    (ns : record.ns = run.ns) (few : run.unknownOwners.size ≤ 64)
    : Backed (store.settle id record now) id
      { run with
        unknownOwners :=
          run.unknownOwners.filter (fun node => (record.state.heldBy node).isSome) } := by
  refine ⟨⟨withReceipt record now, ?_, ?_, ?_, ?_⟩, ?_⟩
  · rw [settle_arrays, if_pos rfl]
  · rw [withReceipt_name]
    exact name
  · rw [withReceipt_ns]
    exact ns
  · intro node member
    rw [withReceipt_state]
    exact (BTreeSet.mem_filter.mp member).2
  · exact Std.ExtTreeSet.size_filter_le_size.trans few

theorem Change.allBacked {machine next : Machine} (fresh : FreshIds ids)
    (known : Known ids machine) (backed : AllBacked machine.store)
    (change : Change P ids G machine next)
    : AllBacked next.store := by
  intro id run present
  cases change with
  | prune now retention =>
    obtain ⟨found, record, kept⟩ := (machine.store.pruneWithin_runs _ _).mp present
    refine (backed id run found).of_same ?_
    rw [kept, machine.store.pruneWithin_arrays _ _ kept]
  | define nsLabel nameLabel recorded allowed =>
    obtain ⟨_, _, rfl⟩ := recorded.started
    exact (backed id run present).of_same rfl
  | @skip name ns record minute found claimed =>
    simp only [JobCatalog.recordSkip, JobCatalog.modify, found] at present
    exact (backed id run present).of_same rfl
  | @admitRun record admitted source admissible =>
    rcases admitRun_runs present with ⟨rfl, rfl⟩ | before
    · obtain ⟨_, _, _, isNew⟩ := admissible.created
      refine ⟨⟨record, get_insert_self _ _ _, ?_, ?_, ?_⟩, ?_⟩
      · rw [isNew]
        rfl
      · rw [isNew]
        rfl
      · rw [admissible.provenance]
        simp [JobCatalog.newRun]
      · rw [admissible.provenance]
        simp [newRun]
    · refine (backed id run before).of_same (get_insert_ne _ _ ?_)
      rintro rfl
      rw [(known.unused fresh le_rfl).noRun] at before
      cases before
  | enrol enrollable =>
    refine (backed id run present).of_same (get_insert_ne _ _ ?_)
    rintro rfl
    rw [(known.unused fresh le_rfl).noRun] at present
    cases present
  | @advance other before updated now moves found step =>
    simp only [settle_runs] at present
    split at present
    · rename_i same
      subst same
      obtain ⟨earlier, retained, rfl⟩ := Option.map_eq_some_iff.mp present
      obtain ⟨record, isBefore, name, ns, _⟩ := (backed other earlier retained).array
      rw [found] at isBefore
      cases isBefore
      exact .settle now (step.kept.1.trans name) (step.kept.2.1.trans ns)
        (backed other earlier retained).few
    · rename_i different
      refine (backed id run present).of_same ?_
      rw [settle_arrays, if_neg different]
  | @replay other before earlier node digest now moves found admitted unknown current allowed =>
    simp only [settle_runs, acknowledge, recordRun, get_insert_self] at present
    split at present
    · rename_i same
      subst same
      cases present
      obtain ⟨record, isBefore, name, ns, _⟩ := (backed other earlier admitted).array
      rw [found] at isBefore
      cases isBefore
      exact @Backed.settle _ _ { earlier with
        unknownOwners := earlier.unknownOwners.erase node } _ now name ns
        (Std.ExtTreeSet.size_erase_le.trans (backed other earlier admitted).few)
    · rename_i different
      rw [get_insert_ne _ _ different] at present
      refine (backed id run present).of_same ?_
      rw [settle_arrays, if_neg different]
      rfl
  | @unknown other record earlier node moves found admitted holds few =>
    rcases get_insert_cases present with ⟨rfl, rfl⟩ | present
    · have was := backed other earlier admitted
      obtain ⟨array, isArray, name, ns, held⟩ := was.array
      refine ⟨⟨array, isArray, name, ns, ?_⟩, ?_⟩
      · intro owner member
        rcases BTreeSet.mem_insert.mp member with rfl | before
        · rw [found] at isArray
          cases isArray
          exact holds
        · exact held owner before
      · have bound := was.few
        rw [Std.ExtTreeSet.size_insert]
        split
        · exact bound
        rename_i absent
        rcases few with _ | contained
        · omega
        · exact absurd contained absent
    · exact (backed id run present).of_same rfl
  | @quota other record reason moves found =>
    obtain ⟨_, isArray, facts⟩ := (backed id run present).array
    by_cases same : other = id
    · subst same
      rw [found] at isArray
      cases isArray
      exact ⟨⟨_, get_insert_self _ _ _, facts⟩, (backed other run present).few⟩
    · exact (backed id run present).of_same (get_insert_ne _ _ same)
  | stopDefinition stopped =>
    simp only [stop_runs stopped] at present
    exact (backed id run present).of_same rfl
  | _ => exact (backed id run present).of_same rfl

-- One id, one kind

/-- A manifest's id names no array and no run. -/
def Apart (store : TaskArrays) : Prop :=
  ∀ (id : Nat) (manifest : TaskManifest),
    store.manifests[id]? = some manifest
    → store.arrays[id]? = none ∧ store.jobs.runs[id]? = none

/-- A manifest is filed under an id that names no array, hence no run either, and what comes later
takes an id of its own. -/
theorem Change.apart {machine next : Machine} (fresh : FreshIds ids) (known : Known ids machine)
    (backed : AllBacked machine.store) (apart : Apart machine.store)
    (change : Change P ids G machine next)
    : Apart next.store := by
  intro id manifest present
  rcases change.manifest_cases present with
    found | ⟨_, _, _, _, _, _, sameRuns, sameArrays, noArray⟩
  · obtain ⟨noArray, noRun⟩ := apart id manifest found
    have taken : id ≠ ids machine.allocated := by
      rintro rfl
      cases found.symm.trans (known.unused fresh le_rfl).noManifest
    refine ⟨Option.eq_none_iff_forall_ne_some.mpr fun record isArray => ?_,
      Option.eq_none_iff_forall_ne_some.mpr fun run isRun => ?_⟩
    · rcases change.array_cases isArray with ⟨_, before, _⟩ | ⟨isNew, _⟩
      · cases before.symm.trans noArray
      · exact taken isNew
    · rcases change.run_cases isRun with ⟨_, _, before, _⟩ | ⟨isNew, _⟩
      · cases before.symm.trans noRun
      · exact taken isNew
  · refine ⟨noArray, Option.eq_none_iff_forall_ne_some.mpr fun run isRun => ?_⟩
    obtain ⟨record, isArray, _⟩ := (backed id run (sameRuns ▸ isRun)).array
    cases (sameArrays ▸ isArray).symm.trans noArray

namespace Machine

/-- What holds of the retained arrays, runs and manifests, whatever the platform's answers. -/
structure Upright (machine : Machine) : Prop where
  states : ∀ (id : Nat) record, machine.store.arrays[id]? = some record → SoundState record
  backed : AllBacked machine.store
  apart : Apart machine.store

variable {machine : Machine}

theorem upright_changes (fresh : FreshIds ids) {next : Machine} (known : Known ids machine)
    (upright : machine.Upright) (changes : Changes P ids G machine next)
    : next.Upright := by
  refine (Changes.preserves (motive := fun machine => Known ids machine ∧ machine.Upright)
    ?_ changes ⟨known, upright⟩).2
  rintro _ _ ⟨known, states, backed, apart⟩ change
  exact ⟨change.known fresh known, change.soundStates states, change.allBacked fresh known backed,
    change.apart fresh known backed apart⟩

theorem upright_run (fresh : FreshIds ids) (writes : List TaskArrayWrite)
    : (run P ids {} writes).Upright := by
  refine Meets.induction (motive := Upright) fresh ?_ known_initial
    ⟨by simp, by simp [AllBacked], by simp [Apart]⟩ (meets_trivial {} writes)
  intro machine write known upright _
  exact upright_changes fresh known upright
    (apply_changes (P := P) (G := .free 0) fresh machine known (Nat.zero_le _) write
      (permits_free 0 machine.store write))

end Machine

-- Between two moments

/-- The same array at a later time: its own calls led from the one state to the other. -/
def TaskArrayRecord.Follows (old new : TaskArrayRecord) : Prop :=
  new.name = old.name
  ∧ new.ns = old.ns
  ∧ new.template = old.template
  ∧ ∃ ops, new.state = old.state.run ops

theorem ArrayStep.follows (step : ArrayStep G record updated)
    : record.Follows updated := by
  cases step with
  | same | noted => exact ⟨rfl, rfl, rfl, [], rfl⟩
  | settled now moves step =>
    obtain ⟨name, ns, template, _⟩ := step.kept
    simp only [TaskArrayRecord.Follows, withReceipt_name, withReceipt_ns, withReceipt_template,
      withReceipt_state]
    refine ⟨name, ns, template, ?_⟩
    cases step with
    | run ops _ => exact ⟨ops, rfl⟩
    | stop reason why asked _ =>
      cases reason with
      | cancelled => exact ⟨[.cancel], rfl⟩
      | unrunnable => exact ⟨[.refuseUnrunnable], rfl⟩
      | tooManyFailures => exact absurd rfl asked
    | requeue node _ => exact ⟨[.requeueNode node], rfl⟩

/-- Whatever an id names at two times is the same array, run or manifest, and it doesn't come to
name a thing of another kind.
-/
structure TaskArrays.Lasts (before after : TaskArrays) (id : Nat) : Prop where
  array : ∀ old new,
    before.arrays[id]? = some old → after.arrays[id]? = some new → old.Follows new
  run : ∀ old new,
    before.jobs.runs[id]? = some old
    → after.jobs.runs[id]? = some new
    → ∃ owners, new = { old with unknownOwners := owners }
  manifest : ∀ old new,
    before.manifests[id]? = some old → after.manifests[id]? = some new → new = old
  -- An array that belongs to no job's run is never given to one.
  plain : ∀ old,
    before.arrays[id]? = some old → before.jobs.runs[id]? = none → after.jobs.runs[id]? = none
  unfiled :
    before.arrays[id]?.isSome ∨ before.jobs.runs[id]?.isSome → after.manifests[id]? = none
  filed :
    before.manifests[id]?.isSome → after.arrays[id]? = none ∧ after.jobs.runs[id]? = none

section

variable {machine next : Machine} {store : TaskArrays} {index : Nat}

theorem Change.lasts (fresh : FreshIds ids) (change : Change P ids G machine next)
    (taken : index < machine.allocated) (early : index < G.base)
    (lasts : store.Lasts machine.store (ids index))
    : store.Lasts next.store (ids index) := by
  -- What is new is named by an id that is taken later than this one.
  have later : ids index ≠ ids machine.allocated := fun same => taken.ne (fresh.distinct same)
  have noNewArray (none : machine.store.arrays[ids index]? = none)
      : next.store.arrays[ids index]? = Option.none := by
    refine Option.eq_none_iff_forall_ne_some.mpr fun record found => ?_
    rcases change.array_cases found with ⟨_, before, _⟩ | ⟨isNew, _⟩
    · cases before.symm.trans none
    · exact later isNew
  have noNewRun (none : machine.store.jobs.runs[ids index]? = none)
      : next.store.jobs.runs[ids index]? = Option.none := by
    refine Option.eq_none_iff_forall_ne_some.mpr fun run found => ?_
    rcases change.run_cases found with ⟨_, _, before, _⟩ | ⟨isNew, _⟩
    · cases before.symm.trans none
    · exact later isNew
  have sameManifest {manifest : TaskManifest}
      (found : next.store.manifests[ids index]? = some manifest)
      : machine.store.manifests[ids index]? = some manifest := by
    refine (change.manifest_cases found).resolve_right ?_
    rintro ⟨_, recent, _, isNew, _⟩
    exact (early.trans_le recent).ne' (fresh.distinct isNew)
  refine ⟨fun old new held found => ?_, fun old new held found => ?_,
    fun old new held found => lasts.manifest old new held (sameManifest found),
    fun old held none => noNewRun (lasts.plain old held none), fun held => ?_, fun held => ?_⟩
  · obtain ⟨middle, present, step⟩ :=
      (change.array_cases found).resolve_right fun isNew => later isNew.1
    obtain ⟨name, ns, template, ops, state⟩ := lasts.array old middle held present
    obtain ⟨name', ns', template', more, state'⟩ := step.follows
    exact ⟨name'.trans name, ns'.trans ns, template'.trans template, ops ++ more,
      by rw [state', state, run_append]⟩
  · obtain ⟨middle, owners, present, rfl⟩ :=
      (change.run_cases found).resolve_right fun isNew => later isNew.1
    obtain ⟨_, rfl⟩ := lasts.run old middle held present
    exact ⟨owners, rfl⟩
  · refine Option.eq_none_iff_forall_ne_some.mpr fun manifest found => ?_
    cases (sameManifest found).symm.trans (lasts.unfiled held)
  · exact ⟨noNewArray (lasts.filed held).1, noNewRun (lasts.filed held).2⟩

theorem Changes.lasts (fresh : FreshIds ids) (changes : Changes P ids G machine next)
    (taken : index < machine.allocated) (early : index < G.base)
    (lasts : store.Lasts machine.store (ids index))
    : index < next.allocated ∧ store.Lasts next.store (ids index) := by
  induction changes with
  | refl => exact ⟨taken, lasts⟩
  | tail _ change ih =>
    exact ⟨ih.1.trans_le change.allocated_le, change.lasts fresh ih.1 early ih.2⟩

end

/-- At one moment an id names one thing. -/
theorem Apart.lasts {store : TaskArrays} (apart : Apart store) (id : Nat)
    : store.Lasts store id := by
  refine ⟨fun old new held found => ?_, fun old new held found => ?_, fun old new held found => ?_,
    fun _ _ none => none, fun held => ?_, fun held => ?_⟩
  · cases held.symm.trans found
    exact ⟨rfl, rfl, rfl, [], rfl⟩
  · cases held.symm.trans found
    exact ⟨_, rfl⟩
  · cases held.symm.trans found
    rfl
  · refine Option.eq_none_iff_forall_ne_some.mpr fun manifest found => ?_
    obtain ⟨noArray, noRun⟩ := apart id manifest found
    simp [noArray, noRun] at held
  · obtain ⟨manifest, found⟩ := Option.isSome_iff_exists.mp held
    exact apart id manifest found

/-- Whatever is written, an id never comes to name something else, not even after what it named was
pruned; and the store takes an array from one state to another by the array's own calls only. -/
theorem Machine.ids_last (ids : { ids : Nat → Nat // FreshIds ids })
    (earlier later : List TaskArrayWrite) (id : Nat)
    : (run P ids {} earlier).store.Lasts (run P ids (run P ids {} earlier) later).store id := by
  obtain ⟨ids, fresh⟩ := ids
  have known := known_run (P := P) fresh earlier
  by_cases taken : ∃ index < (run P ids {} earlier).allocated, ids index = id
  · obtain ⟨index, taken, rfl⟩ := taken
    refine (Meets.induction fresh (motive := fun machine => index < machine.allocated
      ∧ (run P ids {} earlier).store.Lasts machine.store (ids index))
      (fun machine write known holds _ => ?_) known ⟨taken, ?_⟩ (meets_trivial _ later)).2
    · exact (apply_changes (G := .free machine.allocated) fresh machine known le_rfl write
        (permits_free _ _ write)).lasts fresh holds.1 holds.1 holds.2
    · exact (upright_run fresh earlier).apart.lasts (ids index)
  · obtain ⟨noArray, noRun, noManifest⟩ := known.untaken taken
    refine ⟨?_, ?_, ?_, ?_, ?_, ?_⟩ <;> simp [noArray, noRun, noManifest]

end Reliaburger
