import Reliaburger.Store.Decomposition

/-! What a job transaction answers and what it leaves alone. Batches and deployments make
several of them in a row and rely on both.
-/

namespace Reliaburger

open Checks BTreeMap JobCatalog TaskArrays

variable {P : Platform} {ids : Nat → Nat}

/-- The run answers a put: same job, same trigger, same definition. -/
structure RunRecord.Answers (P : Platform) (run : RunRecord) (name ns : String)
    (definition : JobDefinition) (trigger : RunTrigger) : Prop where
  sameName : run.name = name
  sameNs : run.ns = ns
  sameTrigger : run.trigger = trigger
  sameDigest : run.definitionDigest = (definition.within ns).digest P

-- Decisions

namespace JobCatalog

variable {active : List Nat} {catalog next : JobCatalog} {write : JobWrite}

/-- A prepared transaction changes definitions only. -/
theorem prepare_runs {plan : JobPlan} (prepared : catalog.prepare P write active = .ok (plan, next))
    : next.runs = catalog.runs := by
  cases write with
  | put name ns definition trigger now =>
    rcases prepare_put prepared with ⟨_, _, _, _, _, _, _, _, rfl⟩ | ⟨_, recorded, _⟩
    · rfl
    · obtain ⟨_, _, rfl⟩ := recorded.started
      rfl
  | fire name ns revision minute now =>
    obtain ⟨_, _, ⟨_, rfl⟩ | ⟨_, _, _, rfl, _⟩⟩ := prepare_fire prepared
    · rfl
    · rfl

/-- Only a put's trigger finds an existing run, and that run answers it. -/
theorem prepare_existing {id : Nat}
    (prepared : catalog.prepare P write active = .ok (.existing id, next))
    : ∃ name ns definition trigger now run,
        write = .put name ns definition (some trigger) now
        ∧ Nameable trigger
        ∧ catalog.runs[id]? = some run
        ∧ run.Answers P name ns definition trigger := by
  cases write with
  | put name ns definition trigger now =>
    rcases prepare_put prepared with
      ⟨named, _, run, rfl, nameable, found, digest, ⟨⟩, _⟩ | ⟨_, _, planned⟩
    · obtain ⟨present, sameName, sameNs, sameTrigger⟩ := triggered_eq_some found
      exact ⟨name, ns, definition, named, now, run, rfl, nameable, present,
        ⟨sameName, sameNs, sameTrigger, digest⟩⟩
    · rcases planned with ⟨_, impossible⟩ | ⟨_, _, _, _, _, _, impossible⟩
      · cases impossible
      · cases impossible
  | fire name ns revision minute now =>
    obtain ⟨_, _, ⟨⟨⟩, _⟩ | ⟨_, _, _, _, ⟨⟨⟩⟩ | ⟨_, _, ⟨⟩⟩⟩⟩ := prepare_fire prepared

/-- The run that a put plans answers it. -/
theorem prepare_register {name ns : String} {put definition : JobDefinition}
    {trigger : Option RunTrigger} {now at_ : Nat} {run : RunRecord}
    (prepared : catalog.prepare P (.put name ns put trigger at_) active
      = .ok (.register definition run now, next))
    : ∃ named, trigger = some named ∧ Nameable named ∧ run.Answers P name ns put named := by
  rcases prepare_put prepared with
    ⟨_, _, _, _, _, _, _, ⟨⟩, _⟩ | ⟨_, _, ⟨_, ⟨⟩⟩ | ⟨named, rfl, nameable, _, _, _, ⟨⟩⟩⟩
  exact ⟨named, rfl, nameable, ⟨rfl, rfl, rfl, rfl⟩⟩

end JobCatalog

namespace TaskArrays

/-- The pruned store with another set of definitions. -/
def Pruned (store : TaskArrays) (now : Nat) (next : TaskArrays) : Prop :=
  ∃ jobs,
    jobs.runs = (store.pruneAt now).jobs.runs
    ∧ next = { store.pruneAt now with jobs }

/-- What a decided transaction comes to, by the checks it passed. -/
inductive Decides (P : Platform) (store : TaskArrays) (write : JobWrite) : JobEffect → Prop
  | superseded (newer : store.supersedes write = true) : Decides P store write .superseded
  | existing {id now : Nat} {name ns : String} {definition : JobDefinition}
      {trigger : RunTrigger} {run : RunRecord}
      (isPut : write = .put name ns definition (some trigger) now)
      (found : store.jobs.runs[id]? = some run)
      (answers : run.Answers P name ns definition trigger)
      : Decides P store write (.existing id)
  | recorded {next : TaskArrays} (pruned : store.Pruned write.nowEpochSecs next)
      (unowned : store.ownedByOther write = false)
      (untriggered : ∀ name ns definition trigger now,
        write = .put name ns definition trigger now → trigger = none)
      : Decides P store write (.recorded next)
  | admitRun {next : TaskArrays} {record : TaskArrayRecord} {run : RunRecord}
      (pruned : store.Pruned write.nowEpochSecs next)
      (unowned : store.ownedByOther write = false)
      (running : record.terminalAtEpochSecs = none)
      (asked : ∀ name ns definition trigger now,
        write = .put name ns definition trigger now
        → ∃ named, trigger = some named ∧ run.Answers P name ns definition named)
      : Decides P store write (.admitRun next record run)

theorem decideJob_decides {store : TaskArrays} {write : JobWrite} {effect : JobEffect}
    (decided : store.decideJob P write = .ok effect)
    : store.Decides P write effect := by
  unfold decideJob at decided
  split at decided
  · rename_i superseded
    cases decided
    exact .superseded superseded
  simp only at decided
  split at decided
  · rename_i prepared
    cases decided
    obtain ⟨_, _, _, _, _, _, isPut, _, found, answers⟩ := prepare_existing prepared
    exact .existing isPut found answers
  split at decided
  · cases decided
  · rename_i prepared
    cases decided
    obtain ⟨_, _, _, _, _, _, isPut, _, found, answers⟩ := prepare_existing prepared
    exact .existing isPut ((store.pruneWithin_runs _ _).mp found).1 answers
  · rename_i jobs prepared
    split at decided
    · cases decided
    rename_i unowned
    cases decided
    refine .recorded ⟨jobs, prepare_runs prepared, rfl⟩ (by simpa using unowned) ?_
    rintro _ _ _ _ now rfl
    rcases prepare_put prepared with
      ⟨_, _, _, _, _, _, _, ⟨⟩, _⟩ | ⟨_, _, ⟨rfl, _⟩ | ⟨_, _, _, _, _, _, ⟨⟩⟩⟩
    rfl
  · rename_i run now jobs prepared
    split at decided
    · cases decided
    rename_i unowned
    unfold decideRun at decided
    split at decided
    · cases decided
    split at decided
    · cases decided
      refine .admitRun ⟨jobs, prepare_runs prepared, rfl⟩ (by simpa using unowned)
        rfl ?_
      rintro _ _ _ _ _ rfl
      obtain ⟨named, isNamed, _, answers⟩ := prepare_register prepared
      exact ⟨named, isNamed, answers⟩
    · split at decided
      · rename_i isCron
        cases decided
        refine .recorded ⟨_, ?_, rfl⟩ (by simpa using unowned) ?_
        · rw [← prepare_runs prepared]
          unfold JobCatalog.recordSkip JobCatalog.modify
          split <;> rfl
        · rintro _ _ _ _ _ rfl
          obtain ⟨_, rfl, nameable, answers⟩ := prepare_register prepared
          have notCron := nameable.notCron
          rw [← answers.sameTrigger, isCron] at notCron
          cases notCron
      · cases decided

end TaskArrays

-- Frames

/-- What job transactions leave alone: they take ids, admit runs under them, and otherwise only
prune. -/
structure JobFrame (ids : Nat → Nat) (before after : Machine) : Prop where
  allocated : before.allocated ≤ after.allocated
  deployments : after.store.deployments = before.store.deployments
  cron : after.store.cronObservedMinute = before.store.cronObservedMinute
  manifests : ∀ {id : Nat} {manifest : TaskManifest},
    after.store.manifests[id]? = some manifest → before.store.manifests[id]? = some manifest
  arrays : ∀ {id : Nat} {record : TaskArrayRecord},
    after.store.arrays[id]? = some record
    → before.store.arrays[id]? = some record
      ∨ ∃ index, before.allocated ≤ index ∧ ids index = id
  runs : ∀ {id : Nat} {run : RunRecord},
    after.store.jobs.runs[id]? = some run
    → before.store.jobs.runs[id]? = some run
      ∨ ∃ index record,
          before.allocated ≤ index
          ∧ index < after.allocated
          ∧ ids index = id
          ∧ after.store.arrays[id]? = some record
          ∧ record.terminalAtEpochSecs = none
  /-- An array without a terminal receipt stays, and so does its provenance. -/
  unfinished : ∀ {index : Nat} {record : TaskArrayRecord},
    index < before.allocated
    → before.store.arrays[ids index]? = some record
    → record.terminalAtEpochSecs = none
    → after.store.arrays[ids index]? = some record
      ∧ after.store.jobs.runs[ids index]? = before.store.jobs.runs[ids index]?

namespace JobFrame

theorem refl (machine : Machine) : JobFrame ids machine machine where
  allocated := le_rfl
  deployments := rfl
  cron := rfl
  manifests found := found
  arrays found := .inl found
  runs found := .inl found
  unfinished _ found _ := ⟨found, rfl⟩

theorem trans {first second third : Machine} (one : JobFrame ids first second)
    (two : JobFrame ids second third)
    : JobFrame ids first third where
  allocated := one.allocated.trans two.allocated
  deployments := two.deployments.trans one.deployments
  cron := two.cron.trans one.cron
  manifests found := one.manifests (two.manifests found)
  arrays found := by
    rcases two.arrays found with before | ⟨index, late, same⟩
    · exact one.arrays before
    · exact .inr ⟨index, one.allocated.trans late, same⟩
  runs found := by
    rcases two.runs found with before | ⟨index, record, late, taken, same, isNew⟩
    · rcases one.runs before with earlier | ⟨index, record, late, taken, rfl, present, running⟩
      · exact .inl earlier
      · exact .inr ⟨index, record, late, taken.trans_le two.allocated, rfl,
          (two.unfinished taken present running).1, running⟩
    · exact .inr ⟨index, record, one.allocated.trans late, taken, same, isNew⟩
  unfinished early found running := by
    obtain ⟨kept, sameRun⟩ := one.unfinished early found running
    obtain ⟨still, sameAgain⟩ := two.unfinished (early.trans_le one.allocated) kept running
    exact ⟨still, sameAgain.trans sameRun⟩

/-- Pruning, with any change to the definitions. -/
theorem pruned {machine : Machine} {now : Nat} {next : TaskArrays}
    (isPruned : machine.store.Pruned now next)
    : JobFrame ids machine { machine with store := next } := by
  obtain ⟨_, sameRuns, rfl⟩ := isPruned
  refine ⟨le_rfl, machine.store.pruneWithin_deployments _ _,
    machine.store.pruneWithin_cronObservedMinute _ _,
    fun found => machine.store.pruneWithin_manifests _ _ found,
    fun found => .inl (machine.store.pruneWithin_arrays _ _ found), ?_, ?_⟩
  · intro id run found
    simp only [sameRuns] at found
    exact .inl ((machine.store.pruneWithin_runs _ _).mp found).1
  · intro index record _ found running
    have kept := machine.store.pruneWithin_unfinished now terminalRetentionSecs found running
    refine ⟨kept, ?_⟩
    simp only [sameRuns]
    apply Option.ext
    intro run
    exact (machine.store.pruneWithin_runs _ _).trans (and_iff_left ⟨record, kept⟩)

/-- Admitting a run under the next id. -/
theorem admitted (fresh : FreshIds ids) (machine : Machine) {record : TaskArrayRecord}
    (run : RunRecord) (running : record.terminalAtEpochSecs = none)
    : JobFrame ids machine
      { store := machine.store.admitRun (ids machine.allocated) record run
        allocated := machine.allocated + 1 } := by
  refine ⟨Nat.le_succ _, rfl, rfl, fun found => found, ?_, ?_, ?_⟩
  · intro id array found
    rcases get_insert_cases found with ⟨same, _⟩ | before
    · exact .inr ⟨machine.allocated, le_rfl, same⟩
    · exact .inl before
  · intro id other found
    rcases admitRun_runs found with ⟨rfl, _⟩ | before
    · exact .inr ⟨machine.allocated, record, le_rfl, Nat.lt_succ_self _, rfl,
        get_insert_self _ _ _, running⟩
    · exact .inl before
  · intro index array early found _
    have different : ids index ≠ ids machine.allocated :=
      fun same => absurd (fresh.distinct same) (Nat.ne_of_lt early)
    refine ⟨?_, admitRun_runs_of_ne record run different found⟩
    simp only [admitRun]
    rw [get_insert_ne _ _ (Ne.symm different)]
    exact found

end JobFrame

namespace Machine

theorem applyJob_frame (fresh : FreshIds ids) (machine : Machine) (write : JobWrite)
    : JobFrame ids machine (machine.applyJob P ids write).2 := by
  unfold applyJob
  split
  · exact .refl machine
  · exact .refl machine
  · exact .refl machine
  · rename_i store decided
    cases decideJob_decides decided with
    | recorded isPruned => exact .pruned isPruned
  · rename_i store record run decided
    cases decideJob_decides decided with
    | admitRun isPruned _ running =>
      exact (JobFrame.pruned isPruned).trans
        (.admitted fresh { machine with store } run running)

/-- A put with a trigger that is answered names a retained run of that trigger; unless the run
was there before, its array is new and has no terminal receipt. -/
theorem applyJob_put {machine : Machine} {name ns : String} {definition : JobDefinition}
    {trigger : RunTrigger} {now : Nat} {answer : TaskArrayApplied} {next : Machine}
    (applied : machine.applyJob P ids (.put name ns definition (some trigger) now)
      = (.ok answer, next))
    : ∃ id run,
        answer = .registered id
        ∧ next.store.jobs.runs[id]? = some run
        ∧ run.Answers P name ns definition trigger
        ∧ ((next = machine ∧ machine.store.jobs.runs[id]? = some run)
          ∨ id = ids machine.allocated
            ∧ next.allocated = machine.allocated + 1
            ∧ ∃ record,
                next.store.arrays[id]? = some record ∧ record.terminalAtEpochSecs = none) := by
  unfold applyJob at applied
  split at applied
  · cases applied
  · rename_i decided
    cases decideJob_decides decided with
    | superseded newer => cases newer
  · rename_i id decided
    cases applied
    cases decideJob_decides decided with
    | existing isPut found answers =>
      cases isPut
      exact ⟨id, _, rfl, found, answers, .inl ⟨rfl, found⟩⟩
  · rename_i decided
    cases decideJob_decides decided with
    | recorded _ _ untriggered => cases untriggered _ _ _ _ _ rfl
  · rename_i record run decided
    cases applied
    cases decideJob_decides decided with
    | admitRun _ _ running asked =>
      obtain ⟨_, ⟨⟩, answers⟩ := asked _ _ _ _ _ rfl
      exact ⟨_, run, rfl, by simp [admitRun, retainRuns, recordRun], answers,
        .inr ⟨rfl, rfl, record, get_insert_self _ _ _, running⟩⟩

/-- A put without a trigger only records. -/
theorem applyJob_untriggered {machine : Machine} {name ns : String}
    {definition : JobDefinition} {now : Nat} {answer : TaskArrayApplied} {next : Machine}
    (applied : machine.applyJob P ids (.put name ns definition none now) = (.ok answer, next))
    : answer = .jobRecorded := by
  unfold applyJob at applied
  split at applied
  · cases applied
  · cases applied
    rfl
  · rename_i decided
    cases decideJob_decides decided with
    | existing isPut => cases isPut
  · cases applied
    rfl
  · rename_i decided
    cases decideJob_decides decided with
    | admitRun _ _ _ asked => obtain ⟨_, ⟨⟩, _⟩ := asked _ _ _ _ _ rfl

end Machine

end Reliaburger
