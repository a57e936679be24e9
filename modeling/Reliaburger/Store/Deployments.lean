import Reliaburger.Store.Transactions

/-! Deployments as sequences of changes: the intent is recorded first, and each admitted hook or
job follows it into the record.
-/

namespace Reliaburger

open Checks BTreeMap JobDefinition

variable {P : Platform} {ids : Nat → Nat} {G : Guard}

-- Accepted configurations

namespace Config

variable {config : Config} {name : String} {job : JobSpec}

/-- A prerequisite of an accepted configuration has no schedule. -/
theorem unscheduled_of_prerequisite (valid : config.validateIntrinsic P = .ok ())
    (declared : config.job[name]? = some job) (isHook : job.runBefore ≠ [])
    : job.schedule = none := by
  simp only [validateIntrinsic, bind_eq_ok] at valid
  obtain ⟨_, _, _, _, _, _, _, _, _, prerequisites, _⟩ := valid
  simp only [validatePrerequisites, checkAll_eq_ok, refuseIf_eq_ok] at prerequisites
  obtain ⟨target, _, isCons⟩ := List.exists_cons_of_ne_nil isHook
  have checked := prerequisites (name, job) (mem_toList.mpr declared) target
    (isCons ▸ List.mem_cons_self)
  simp only [Bool.or_eq_true, not_or] at checked
  simpa using checked.1

end Config

namespace Machine

-- Hooks

variable {operationId : String} {record : DeploymentRecord}

theorem putDeployment_self {machine : Machine}
    (found : machine.store.deployments[operationId]? = some record)
    : machine.putDeployment operationId record = machine := by
  simp only [putDeployment, insert_eq_self found]

/-- How a deployment's record grows while its jobs are admitted. -/
structure Grown (operationId : String) (before after : Machine)
    (record final : DeploymentRecord) : Prop where
  found : after.store.deployments[operationId]? = some final
  others
    : ∀ other, other ≠ operationId
        → after.store.deployments[other]? = before.store.deployments[other]?
  rest : final = { record with hookRuns := final.hookRuns, jobRuns := final.jobRuns }
  hooks : ∀ name, record.hookRuns.contains name = true → final.hookRuns.contains name = true
  jobs : ∀ name, record.jobRuns.contains name = true → final.jobRuns.contains name = true

theorem Grown.trans {first second third : Machine} {middle final : DeploymentRecord}
    (one : Grown operationId first second record middle)
    (two : Grown operationId second third middle final)
    : Grown operationId first third record final where
  found := two.found
  others other different := (two.others other different).trans (one.others other different)
  rest := by rw [two.rest, one.rest]
  hooks name held := two.hooks name (one.hooks name held)
  jobs name held := two.jobs name (one.jobs name held)

/-- A job transaction followed by an update of the deployment's record. -/
theorem Grown.put {machine next : Machine} {updated : DeploymentRecord} (deploys : G.deploys)
    (first : Changes P ids G machine next) (frame : JobFrame ids machine next)
    (found : machine.store.deployments[operationId]? = some record)
    (updates : DeploymentStep next.store operationId record updated)
    (rest : updated = { record with hookRuns := updated.hookRuns, jobRuns := updated.jobRuns })
    (hooks : ∀ name, record.hookRuns.contains name = true → updated.hookRuns.contains name = true)
    (jobs : ∀ name, record.jobRuns.contains name = true → updated.jobRuns.contains name = true)
    : Changes P ids G machine (next.putDeployment operationId updated)
      ∧ Grown operationId machine (next.putDeployment operationId updated) record updated := by
  rw [← frame.deployments] at found
  refine ⟨first.tail (.deployment deploys found updates),
    ⟨get_insert_self _ _ _, fun other different => ?_, rest, hooks, jobs⟩⟩
  simp only [putDeployment]
  rw [get_insert_ne _ _ (Ne.symm different), frame.deployments]

theorem contains_insert {Value : Type} {map : BTreeMap String Value} {name : String}
    (value : Value) {other : String} (held : map.contains other = true)
    : (map.insert name value).contains other = true := by
  rw [contains_iff] at held ⊢
  obtain ⟨found, present⟩ := held
  rw [get_insert]
  split
  · exact ⟨value, rfl⟩
  · exact ⟨found, present⟩

/-- The hooks of a deployment are admitted in turn, by induction on the remaining jobs; the
record holds a run for every hook once all are through. -/
theorem admitHooks_changes (fresh : FreshIds ids) (deploys : G.deploys) (operationId : String)
    (now : Nat)
    (entries : List (String × JobSpec)) (record : DeploymentRecord) (machine : Machine)
    (found : machine.store.deployments[operationId]? = some record)
    (declared : ∀ entry ∈ entries, record.config.job[entry.1]? = some entry.2)
    (unscheduled : ∀ entry ∈ entries, entry.2.runBefore ≠ [] → entry.2.schedule = none)
    (admits : ∀ entry ∈ entries,
      entry.2.runBefore ≠ [] → G.admits entry.2.namespace entry.1 (.hook operationId))
    (uncommitted : record.appsCommitted = false)
    : Changes P ids G machine (admitHooks P ids operationId now entries record machine).2
      ∧ ((admitHooks P ids operationId now entries record machine).1 = .ok ()
        → ∃ final,
            Grown operationId machine
              (admitHooks P ids operationId now entries record machine).2 record final
            ∧ ∀ entry ∈ entries,
                entry.2.runBefore ≠ [] → final.hookRuns.contains entry.1 = true) := by
  induction entries generalizing record machine with
  | nil =>
    refine ⟨.refl, fun _ => ⟨record, ⟨found, fun _ _ => rfl, rfl, fun _ held => held,
      fun _ held => held⟩, by simp⟩⟩
  | cons entry rest ih =>
    obtain ⟨name, spec⟩ := entry
    obtain ⟨mine, declared⟩ := List.forall_mem_cons.mp declared
    obtain ⟨never, unscheduled⟩ := List.forall_mem_cons.mp unscheduled
    obtain ⟨admitted, admits⟩ := List.forall_mem_cons.mp admits
    by_cases ordinary : spec.runBefore.isEmpty = true
    · simp only [admitHooks, ordinary, if_true]
      obtain ⟨changed, grows⟩ := ih record machine found declared unscheduled admits uncommitted
      refine ⟨changed, fun accepted => ?_⟩
      obtain ⟨final, grown, complete⟩ := grows accepted
      refine ⟨final, grown, List.forall_mem_cons.mpr ⟨fun isHook => ?_, complete⟩⟩
      exact absurd (List.isEmpty_iff.mp ordinary) isHook
    have isHook : spec.runBefore ≠ [] := by simpa [List.isEmpty_iff] using ordinary
    have permits : PermitsJob G (deploymentPut (some (.hook operationId)) now name spec) := by
      refine ⟨fun _ asked => Option.some.inj asked ▸ admitted isHook, fun scheduled => ?_⟩
      simp [fromSpec, within, show spec.schedule = none from never isHook] at scheduled
    have first := @applyJob_changes P ids _ machine _ permits
    have frame := applyJob_frame (P := P) fresh machine
      (deploymentPut (some (.hook operationId)) now name spec)
    rcases applied : machine.applyJob P ids
        (deploymentPut (some (.hook operationId)) now name spec) with ⟨_ | _, _⟩
    · rw [applied] at first
      simp only [admitHooks, ordinary, applied, Bool.false_eq_true, if_false]
      exact ⟨first, by simp⟩
    rw [applied] at first frame
    obtain ⟨id, _, rfl, admitted, answers, _⟩ := applyJob_put applied
    simp only [admitHooks, ordinary, applied, Bool.false_eq_true, if_false]
    obtain ⟨noted, grown⟩ := Grown.put deploys first frame found
      (.hook mine isHook admitted answers.sameName answers.sameNs answers.sameTrigger uncommitted)
      rfl (fun _ held => contains_insert id held) (fun _ held => held)
    obtain ⟨changed, grows⟩ := ih { record with hookRuns := record.hookRuns.insert name id }
      _ grown.found declared unscheduled admits uncommitted
    refine ⟨noted.trans changed, fun accepted => ?_⟩
    obtain ⟨final, further, complete⟩ := grows accepted
    refine ⟨final, grown.trans further, List.forall_mem_cons.mpr ⟨fun _ => ?_, complete⟩⟩
    exact further.hooks _ (by simp)

theorem checkDeployment_ok {store : TaskArrays} {config : Config} {now : Nat}
    (checked : checkDeployment P store operationId config now = .ok ())
    : (store.deployments.toList.filter (fun entry => !entry.2.completed)).length
        < maxUnsettledDeployments
      ∧ ∀ workload ∈ workloads config, store.deploymentOwner workload.1 workload.2 = none := by
  unfold checkDeployment at checked
  split at checked
  · cases checked
  rename_i room
  split at checked
  · cases checked
  rename_i unowned
  refine ⟨Nat.lt_of_not_ge room, fun workload member => ?_⟩
  simp only [List.any_eq_true, not_exists, not_and, Bool.not_eq_true,
    Option.isSome_eq_false_iff, Option.isNone_iff_eq_none] at unowned
  exact unowned workload member

/-- What an accepted deployment leaves: a record of its configuration with a run for every
hook. -/
def Begun (operationId : String) (config : Config) (now : Nat) (before after : Machine)
    : Prop :=
  ∃ final,
    Grown operationId
      { before with store :=
        before.store.begin operationId { config, submittedAtEpochSecs := now } }
      after { config, submittedAtEpochSecs := now } final
    ∧ ∀ (name : String) (spec : JobSpec),
        config.job[name]? = some spec
        → spec.runBefore ≠ []
        → final.hookRuns.contains name = true

/-- The hooks of a deployment that is not recorded yet may be run. -/
def PermitsBegin (G : Guard) (store : TaskArrays) (operationId : String) (config : Config)
    : Prop :=
  ∀ (name : String) (spec : JobSpec),
    store.deployments[operationId]? = none
    → config.job[name]? = some spec
    → spec.runBefore ≠ []
    → G.admits spec.namespace name (.hook operationId)

/-- Beginning a deployment records the intent and then admits its hooks. -/
theorem deployBegin_changes (fresh : FreshIds ids) (deploys : G.deploys) (machine : Machine)
    (operationId : String) (config : Config) (now : Nat)
    (permits : PermitsBegin G machine.store operationId config)
    : Changes P ids G machine (deployBegin P ids operationId config now machine).2
      ∧ ∀ answer,
          (deployBegin P ids operationId config now machine).1 = .ok answer
          → (deployBegin P ids operationId config now machine).2 = machine
            ∨ Beginnable P machine.store operationId config
              ∧ Begun operationId config now machine
                (deployBegin P ids operationId config now machine).2 := by
  unfold deployBegin
  split
  · exact ⟨.refl, by simp⟩
  rename_i identity
  split
  · exact ⟨.refl, by simp⟩
  rename_i valid
  split
  · exact ⟨.refl, by simp⟩
  rename_i small
  split
  · split
    · exact ⟨.refl, fun _ _ => .inl rfl⟩
    · exact ⟨.refl, by simp⟩
  rename_i absent
  split
  · exact ⟨.refl, by simp⟩
  rename_i checked
  obtain ⟨room, unowned⟩ := checkDeployment_ok checked
  let record : DeploymentRecord := { config, submittedAtEpochSecs := now }
  let begun : Machine := { machine with store := machine.store.begin operationId record }
  have beginnable : Beginnable P machine.store operationId config :=
    ⟨by simpa using identity, valid, by simpa using small, absent, room, unowned⟩
  have begins : Change P ids G machine begun := .begin now deploys beginnable
  have listed : ∀ entry ∈ config.job.toList, config.job[entry.1]? = some entry.2 :=
    fun entry member => mem_toList.mp member
  obtain ⟨changed, grows⟩ := @admitHooks_changes P ids G fresh deploys operationId now
    config.job.toList record begun (get_insert_self _ _ _) listed
    (fun entry member => Config.unscheduled_of_prerequisite valid (listed entry member))
    (fun entry member => permits entry.1 entry.2 absent (listed entry member)) rfl
  have whole := Relation.ReflTransGen.head begins changed
  simp only
  split
  · rename_i refused next admitted
    replace admitted : admitHooks P ids operationId now config.job.toList record begun
        = (.error refused, next) := admitted
    rw [admitted] at whole
    exact ⟨whole, by simp⟩
  · rename_i next admitted
    replace admitted : admitHooks P ids operationId now config.job.toList record begun
        = (.ok (), next) := admitted
    rw [admitted] at whole grows
    refine ⟨whole, fun _ _ => .inr ⟨beginnable, ?_⟩⟩
    obtain ⟨final, grown, complete⟩ := grows rfl
    exact ⟨final, grown, fun name spec declared =>
      complete (name, spec) (mem_toList.mpr declared)⟩

-- Ordinary jobs

/-- The ordinary jobs of a deployment are admitted in turn, by induction on the remaining jobs;
the record holds a run for each that has no schedule once all are through. -/
theorem admitOrdinary_changes (fresh : FreshIds ids) (deploys : G.deploys)
    (operationId : String) (now : Nat)
    (entries : List (String × JobSpec)) (record : DeploymentRecord) (machine : Machine)
    (found : machine.store.deployments[operationId]? = some record)
    (declared : ∀ entry ∈ entries, record.config.job[entry.1]? = some entry.2)
    (allowed : ∀ entry ∈ entries,
      entry.2.runBefore = []
      → (entry.2.schedule = none → G.admits entry.2.namespace entry.1 (.hook operationId))
        ∧ (entry.2.schedule ≠ none → G.schedules entry.2.namespace entry.1 now))
    (committed : record.appsCommitted = true)
    : Changes P ids G machine (admitOrdinary P ids operationId now entries record machine).2
      ∧ ∀ final,
          (admitOrdinary P ids operationId now entries record machine).1 = .ok final
          → Grown operationId machine
              (admitOrdinary P ids operationId now entries record machine).2 record final
            ∧ ∀ entry ∈ entries,
                entry.2.runBefore = []
                → entry.2.schedule = none
                → final.jobRuns.contains entry.1 = true := by
  induction entries generalizing record machine with
  | nil =>
    refine ⟨.refl, ?_⟩
    rintro _ ⟨⟩
    exact ⟨⟨found, fun _ _ => rfl, rfl, fun _ held => held, fun _ held => held⟩, by simp⟩
  | cons entry rest ih =>
    obtain ⟨name, spec⟩ := entry
    obtain ⟨mine, declared⟩ := List.forall_mem_cons.mp declared
    obtain ⟨may, allowed⟩ := List.forall_mem_cons.mp allowed
    by_cases isHook : (!spec.runBefore.isEmpty) = true
    · simp only [admitOrdinary, isHook, if_true]
      obtain ⟨changed, grows⟩ := ih record machine found declared allowed committed
      refine ⟨changed, fun final accepted => ?_⟩
      obtain ⟨grown, complete⟩ := grows final accepted
      refine ⟨grown, List.forall_mem_cons.mpr ⟨fun ordinary => ?_, complete⟩⟩
      simp [show spec.runBefore = [] from ordinary] at isHook
    have ordinary : spec.runBefore = [] := by simpa [List.isEmpty_iff] using isHook
    let put := deploymentPut (deploymentTrigger operationId spec) now name spec
    have permits : PermitsJob G put := by
      refine ⟨fun cause triggered => ?_,
        fun scheduled => (may ordinary).2 fun unscheduled => ?_⟩
      · cases isSome : spec.schedule with
        | none =>
          simp only [deploymentTrigger, fromSpec, isSome] at triggered
          cases triggered
          exact (may ordinary).1 isSome
        | some expression => simp [deploymentTrigger, fromSpec, isSome] at triggered
      · simp [fromSpec, within, show spec.schedule = none from unscheduled] at scheduled
    have first := @applyJob_changes P ids _ machine _ permits
    have frame := applyJob_frame (P := P) fresh machine put
    rcases applied : machine.applyJob P ids put with ⟨_ | _, next⟩
    · rw [applied] at first
      simp only [admitOrdinary, isHook, Bool.false_eq_true, if_false, show machine.applyJob P ids
        (deploymentPut (deploymentTrigger operationId spec) now name spec) = _ from applied]
      exact ⟨first, by simp⟩
    rw [applied] at first frame
    simp only [admitOrdinary, isHook, Bool.false_eq_true, if_false, show machine.applyJob P ids
      (deploymentPut (deploymentTrigger operationId spec) now name spec) = _ from applied]
    by_cases scheduled : spec.schedule = none
    · -- An unscheduled job runs at once, and its run is recorded.
      have trigger : deploymentTrigger operationId spec = some (.hook operationId) := by
        simp [deploymentTrigger, fromSpec, scheduled]
      simp only [put, trigger, deploymentPut] at applied
      obtain ⟨id, _, rfl, admitted, answers, _⟩ := applyJob_put applied
      simp only
      obtain ⟨noted, grown⟩ := Grown.put deploys first frame found
        (.ordinary mine ordinary scheduled admitted answers.sameName answers.sameNs
          answers.sameTrigger committed)
        rfl (fun _ held => held) (fun _ held => contains_insert id held)
      obtain ⟨changed, grows⟩ := ih { record with jobRuns := record.jobRuns.insert name id }
        _ grown.found declared allowed committed
      refine ⟨noted.trans changed, fun final accepted => ?_⟩
      obtain ⟨further, complete⟩ := grows final accepted
      refine ⟨grown.trans further, List.forall_mem_cons.mpr ⟨fun _ _ => ?_, complete⟩⟩
      exact further.jobs _ (by simp)
    · -- A scheduled job is only recorded, and the deployment's record stays as it is.
      have trigger : deploymentTrigger operationId spec = none := by
        cases isSome : spec.schedule with
        | none => exact absurd isSome scheduled
        | some expression => simp [deploymentTrigger, fromSpec, isSome]
      simp only [put, trigger, deploymentPut] at applied
      obtain rfl := applyJob_untriggered applied
      rw [← frame.deployments] at found
      simp only [putDeployment_self found]
      obtain ⟨changed, grows⟩ := ih record next found declared allowed committed
      refine ⟨first.trans changed, fun final accepted => ?_⟩
      obtain ⟨further, complete⟩ := grows final accepted
      refine ⟨⟨further.found, fun other different => ?_, further.rest, further.hooks,
        further.jobs⟩, List.forall_mem_cons.mpr ⟨fun _ unscheduled => ?_, complete⟩⟩
      · rw [further.others other different, frame.deployments]
      · exact absurd unscheduled scheduled

/-- Publishing the apps of a deployment is due: it was neither cancelled nor committed, and all
of its hooks succeeded. -/
structure Committable (store : TaskArrays) (operationId : String) (record : DeploymentRecord)
    : Prop where
  found : store.deployments[operationId]? = some record
  uncancelled : record.cancelled = false
  uncommitted : record.appsCommitted = false
  succeeded
    : ∀ (name : String) (id : Nat),
        record.hookRuns[name]? = some id
        → ∃ array, store.arrays[id]? = some array ∧ array.state.status = .succeeded

/-- What publishing the apps of a deployment leaves: its record, committed, with a run for
every job that has no schedule. -/
def Committed (operationId : String) (record : DeploymentRecord) (before after : Machine)
    : Prop :=
  ∃ final,
    Grown operationId before after { record with appsCommitted := true } final
    ∧ ∀ (name : String) (spec : JobSpec),
        record.config.job[name]? = some spec
        → spec.runBefore = []
        → spec.schedule = none
        → final.jobRuns.contains name = true

/-- The jobs that publication runs may be run, and those it gives a schedule may have one. -/
def PermitsCommit (G : Guard) (store : TaskArrays) (operationId : String) (now : Nat)
    : Prop :=
  ∀ (record : DeploymentRecord) (name : String) (spec : JobSpec),
    store.deployments[operationId]? = some record
    → record.appsCommitted = false
    → record.config.job[name]? = some spec
    → spec.runBefore = []
    → (spec.schedule = none → G.admits spec.namespace name (.hook operationId))
      ∧ (spec.schedule ≠ none → G.schedules spec.namespace name now)

theorem hasStatus_iff {store : TaskArrays} {id : Nat} {holds : TaskArrayStatus → Bool}
    : hasStatus store id holds = true
      ↔ ∃ record, store.arrays[id]? = some record ∧ holds record.state.status = true := by
  simp only [hasStatus, Option.any_eq_true]

/-- Publishing the apps of a deployment commits its record and then admits its jobs. -/
theorem deployCommitted_changes (fresh : FreshIds ids) (deploys : G.deploys)
    (machine : Machine) (operationId : String) (now : Nat)
    (permits : PermitsCommit G machine.store operationId now)
    : Changes P ids G machine (deployCommitted P ids operationId now machine).2
      ∧ ∀ answer,
          (deployCommitted P ids operationId now machine).1 = .ok answer
          → (deployCommitted P ids operationId now machine).2 = machine
            ∨ ∃ record,
                Committable machine.store operationId record
                ∧ Committed operationId record machine
                  (deployCommitted P ids operationId now machine).2 := by
  unfold deployCommitted
  split
  · exact ⟨.refl, by simp⟩
  rename_i record found
  split
  · exact ⟨.refl, by simp⟩
  rename_i uncancelled
  split
  · exact ⟨.refl, fun _ _ => .inl rfl⟩
  rename_i uncommitted
  split
  · exact ⟨.refl, by simp⟩
  rename_i hooks
  simp only [Bool.not_eq_true', Bool.not_eq_false, List.all_eq_true] at hooks
  let committed : DeploymentRecord := { record with appsCommitted := true }
  have committable : Committable machine.store operationId record := by
    refine ⟨found, by simpa using uncancelled, by simpa using uncommitted, ?_⟩
    intro name id admitted
    obtain ⟨array, present, succeeded⟩ := hasStatus_iff.mp
      (hooks id (mem_valueList.mpr ⟨name, admitted⟩))
    exact ⟨array, present, by simpa using succeeded⟩
  have commits : Change P ids G machine (machine.putDeployment operationId committed) :=
    .deployment deploys found
      (.commit committable.uncancelled committable.uncommitted committable.succeeded)
  have listed : ∀ entry ∈ record.config.job.toList, record.config.job[entry.1]? = some entry.2 :=
    fun entry member => mem_toList.mp member
  obtain ⟨changed, grows⟩ := @admitOrdinary_changes P ids G fresh deploys operationId now
    record.config.job.toList committed (machine.putDeployment operationId committed)
    (get_insert_self _ _ _) listed
    (fun entry member => permits record entry.1 entry.2 found (by simpa using uncommitted)
      (listed entry member)) rfl
  have whole := Relation.ReflTransGen.head commits changed
  simp only
  split
  · rename_i next admitted
    rw [show admitOrdinary P ids operationId now _ committed _ = _ from admitted] at whole
    exact ⟨whole, by simp⟩
  rename_i final next admitted
  rw [show admitOrdinary P ids operationId now _ committed _ = _ from admitted] at whole grows
  obtain ⟨grown, complete⟩ := grows final rfl
  rw [putDeployment_self grown.found]
  refine ⟨whole, fun _ _ => .inr ⟨record, committable, final, ?_, ?_⟩⟩
  · refine ⟨grown.found, ?_, grown.rest, grown.hooks, grown.jobs⟩
    intro other different
    rw [grown.others other different]
    exact get_insert_ne _ _ (Ne.symm different)
  · exact fun name spec declared =>
      complete (name, spec) (mem_toList.mpr declared)

-- Cancellation and release

section

variable (ids : Nat → Nat) (deploys : G.deploys) (machine : Machine) (operationId : String)
include deploys

theorem deployCancel_changes (now : Nat)
    (allowed : ∀ record,
      machine.store.deployments[operationId]? = some record
      → record.completed = false
      → machine.store.MayStop G record.runs)
    : Changes P ids G machine (deployCancel operationId now machine).2 := by
  unfold deployCancel
  split
  · exact .refl
  rename_i record found
  split
  · exact .refl
  rename_i unsettled
  rw [Bool.not_eq_true] at unsettled
  have cancelled := cancelAll_changes (P := P) ids now _ machine (allowed record found unsettled)
  have same := cancelAll_deployments now record.runs machine.store
  split
  · rename_i stopped
    rw [stopped] at cancelled
    exact cancelled
  · rename_i stopped
    rw [stopped] at cancelled same
    exact cancelled.tail (.deployment deploys (same ▸ found) (.cancel unsettled))

theorem deployRelease_changes
    : Changes P ids G machine (deployRelease operationId machine).2 := by
  unfold deployRelease
  simp only
  split
  · exact .refl
  rename_i found
  split
  · exact .refl
  rename_i unsettled
  split
  · exact .refl
  exact .single (.deployment deploys found (.release _ _ (by simpa using unsettled)))

end

end Machine

end Reliaburger
