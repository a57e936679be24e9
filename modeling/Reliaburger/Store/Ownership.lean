import Reliaburger.Store.TerminalStatus

/-! What each write does to the records of deployments: a deployment commits its apps once all
of its hooks have succeeded, and until it settles it owns its workloads alone.
-/

namespace Reliaburger

open BTreeMap TaskArrayState TaskArrays

variable {P : Platform} {ids : Nat → Nat} {G : Guard}

-- One write

/-- The array under `id` ended without success, if it is still retained. -/
def Spoilt (store : TaskArrays) (id : Nat) : Prop :=
  ∀ record,
    store.arrays[id]? = some record
    → record.state.status.isTerminal = true ∧ record.state.status ≠ .succeeded

/-- A deployment may be released: it has been published or cancelled, or a hook failed. -/
def Decided (store : TaskArrays) (record : DeploymentRecord) : Prop :=
  record.appsCommitted = true
  ∨ record.cancelled = true
  ∨ ∃ (name : String) (id : Nat), record.hookRuns[name]? = some id ∧ Spoilt store id

inductive RecordTurn (P : Platform) (store : TaskArrays) (operationId : String)
    (write : TaskArrayWrite) (later : DeploymentRecord)
    : Prop where
  | same (found : store.deployments[operationId]? = some later)
  | begun {config : Config} {now : Nat}
      (isWrite : write = .deployBegin operationId config now)
      (beginnable : Beginnable P store operationId config)
      (rest : later
        = { config, submittedAtEpochSecs := now, hookRuns := later.hookRuns,
            jobRuns := later.jobRuns })
      (complete : ∀ (name : String) (spec : JobSpec),
        config.job[name]? = some spec
        → spec.runBefore ≠ []
        → later.hookRuns.contains name = true)
  | committed {now : Nat} {record : DeploymentRecord}
      (isWrite : write = .deployCommitted operationId now)
      (committable : Machine.Committable store operationId record)
      (rest : later
        = { record with
            appsCommitted := true
            hookRuns := later.hookRuns
            jobRuns := later.jobRuns })
      (hooks : ∀ name,
        record.hookRuns.contains name = true → later.hookRuns.contains name = true)
  | cancelled {now : Nat} {record : DeploymentRecord}
      (isWrite : write = .deployCancel operationId now)
      (found : store.deployments[operationId]? = some record)
      (unsettled : record.completed = false)
      (updated : later = { record with cancelled := true })
  | released {record : DeploymentRecord} (outcome : DeploymentOutcome) (finishedAt : Nat)
      (isWrite : write = .deployRelease operationId)
      (found : store.deployments[operationId]? = some record)
      (unsettled : record.completed = false) (decided : Decided store record)
      (updated : later
        = { record with
            completed := true
            outcome := some outcome
            finishedAt := some finishedAt })

/-- One record is written, and the others stay. -/
theorem RecordTurn.put {store : TaskArrays} {operationId other : String} {write : TaskArrayWrite}
    {updated later : DeploymentRecord}
    (present : (store.deployments.insert operationId updated)[other]? = some later)
    (turn : RecordTurn P store operationId write updated)
    : RecordTurn P store other write later := by
  rcases get_insert_cases present with ⟨rfl, rfl⟩ | before
  · exact turn
  · exact .same before

def Guard.settled : Guard :=
  { Guard.free 0 with deploys := False }

variable {machine next : Machine}

theorem Change.deployments_eq (change : Change P ids G machine next)
    (settled : ¬ G.deploys)
    : next.store.deployments = machine.store.deployments := by
  cases change with
  | prune now retention => exact pruneWithin_deployments _ _ _
  | begin now deploys _ => exact absurd deploys settled
  | deployment deploys _ _ => exact absurd deploys settled
  | _ => rfl

namespace Machine

variable {other : String} {later : DeploymentRecord}

variable {machine : Machine}

theorem deployRelease_turn {operationId : String}
    (present : (deployRelease operationId machine).2.store.deployments[other]? = some later)
    : RecordTurn P machine.store other (.deployRelease operationId) later := by
  unfold deployRelease at present
  simp only at present
  split at present
  · exact .same present
  rename_i record found
  split at present
  · exact .same present
  rename_i unsettled
  split at present
  · exact .same present
  rename_i due
  refine .put present (.released _ _ rfl found (by simpa using unsettled) ?_ rfl)
  simp only [Bool.or_eq_true, Bool.and_eq_true, Bool.not_eq_true', not_or, not_and,
    Bool.not_eq_false, List.any_eq_true] at due
  by_cases committed : record.appsCommitted = true
  · exact .inl committed
  by_cases cancelled : record.cancelled = true
  · exact .inr (.inl cancelled)
  obtain ⟨id, listed, failed⟩ := due.2 ⟨by simpa using committed, by simpa using cancelled⟩
  obtain ⟨name, admitted⟩ := mem_valueList.mp listed
  obtain ⟨_, stored, status⟩ := hasStatus_iff.mp failed
  refine .inr (.inr ⟨name, id, admitted, fun other isArray => ?_⟩)
  rw [stored] at isArray
  cases isArray
  simpa using status

theorem deployCancel_turn {operationId : String} {now : Nat}
    (present : (deployCancel operationId now machine).2.store.deployments[other]? = some later)
    : RecordTurn P machine.store other (.deployCancel operationId now) later := by
  unfold deployCancel at present
  split at present
  · exact .same present
  rename_i record found
  split at present
  · exact .same present
  rename_i unsettled
  have same := cancelAll_deployments now record.runs machine.store
  split at present
  · rename_i refused store stopped
    rw [stopped] at same
    exact .same (same ▸ present)
  · rename_i store stopped
    rw [stopped] at same
    replace present : (store.deployments.insert operationId { record with cancelled := true })[
      other]? = some later := present
    rw [same] at present
    exact .put present (.cancelled rfl found (by simpa using unsettled) rfl)

/-- A transaction that is refused keeps the store, and one that is accepted was carried out. -/
theorem applyTransaction_cases (machine : Machine) (write : TaskArrayWrite)
    : ((∃ refused, (machine.applyTransaction P ids write).1 = .error refused)
        ∧ (machine.applyTransaction P ids write).2.store = machine.store)
      ∨ ∃ answer,
          (machine.applyDeployment P ids write).1 = .ok answer
          ∧ machine.applyTransaction P ids write = machine.applyDeployment P ids write := by
  unfold applyTransaction
  split
  · exact .inl ⟨⟨_, rfl⟩, rfl⟩
  split
  · exact .inl ⟨⟨_, rfl⟩, rfl⟩
  · rename_i answer next applied
    exact .inr ⟨answer, by rw [applied], by rw [applied]⟩

/-- An accepted publication was made before, or commits a record that was due. -/
theorem deployCommitted_accepted (fresh : FreshIds ids) {operationId : String} {now : Nat}
    {answer : TaskArrayApplied}
    (accepted : (deployCommitted P ids operationId now machine).1 = .ok answer)
    : (deployCommitted P ids operationId now machine).2 = machine
      ∨ ∃ record,
          Committable machine.store operationId record
          ∧ Committed operationId record machine
            (deployCommitted P ids operationId now machine).2 :=
  (deployCommitted_changes (P := P) (G := .free 0) fresh trivial machine operationId now
    (permits_free 0 machine.store (.deployCommitted operationId now)).2.2).2 answer accepted

/-- Every write takes a record through one of these turns, by cases on the write. -/
theorem apply_turn (fresh : FreshIds ids) (known : Known ids machine)
    {write : TaskArrayWrite}
    (present : (machine.apply P ids write).2.store.deployments[other]? = some later)
    : RecordTurn P machine.store other write later := by
  cases deploys : write.isDeployment with
  | false =>
    have changes := apply_changes (P := P) (G := .settled) fresh machine known (Nat.zero_le _)
      write (permits_of { deploys := fun deployed => by simp [deploys] at deployed })
    have same := changes.preserves
      (motive := fun later => later.store.deployments = machine.store.deployments)
      (fun _ _ before change => (change.deployments_eq (fun never => never)).trans before) rfl
    exact .same (same ▸ present)
  | true =>
    have transaction
        : (machine.apply P ids write).2 = (machine.applyTransaction P ids write).2 := by
      cases write <;> first | rfl | cases deploys
    rw [transaction] at present
    rcases @applyTransaction_cases P ids machine write with ⟨_, same⟩ | ⟨answer, accepted, applied⟩
    · exact .same (same ▸ present)
    rw [applied] at present
    cases write with
    | deployBegin operationId config now =>
      rcases (deployBegin_changes (P := P) (G := .free 0) fresh trivial machine operationId
        config now (permits_free 0 machine.store (.deployBegin operationId config now)).2.2).2
        answer accepted with same | ⟨beginnable, _, grown, complete⟩
      · exact .same (congrArg (·.store.deployments) same ▸ present)
      by_cases here : other = operationId
      · subst here
        cases grown.found.symm.trans present
        exact .begun rfl beginnable grown.rest complete
      · have before := (grown.others other here).symm.trans present
        simp only [begin, get_insert, Ne.symm here, if_false, get_forgotten] at before
        split at before
        · cases before
        · exact .same before
    | deployCommitted operationId now =>
      rcases deployCommitted_accepted fresh accepted with same | ⟨_, committable, _, grown, _⟩
      · exact .same (congrArg (·.store.deployments) same ▸ present)
      by_cases here : other = operationId
      · subst here
        cases grown.found.symm.trans present
        exact .committed rfl committable grown.rest grown.hooks
      · exact .same ((grown.others other here).symm.trans present)
    | deployCancel operationId now => exact deployCancel_turn present
    | deployRelease operationId => exact deployRelease_turn present
    | _ => cases deploys

end Machine

-- Spoilt hooks

/-- Nothing makes a success of an array that ended otherwise. -/
theorem RecordStep.spoilt {requeues : Prop} {record updated : TaskArrayRecord}
    (step : RecordStep G requeues record updated)
    (terminal : record.state.status.isTerminal = true)
    (spoilt : record.state.status ≠ .succeeded)
    : updated.state.status.isTerminal = true ∧ updated.state.status ≠ .succeeded := by
  refine ⟨step.kept.2.2.2.2.2 terminal, ?_⟩
  cases step with
  | run ops plain =>
    rwa [run_of_terminal terminal (fun op member => by
      have isPlain := plain op member
      cases op <;> first | rfl | cases isPlain)]
  | stop reason why asked allowed =>
    exact (stoppable_of_stopped (Option.isSome_iff_ne_none.mp (stopped_stop record.state reason))).1
  | requeue node _ =>
    rwa [show (record.state.requeueNode node).2 = record.state from @step_of_terminal record.state
      terminal (.requeueNode node) (by simp [ArrayOp.isStop])]

theorem Change.spoilt (change : Change P ids G machine next) {id : Nat}
    (old : id ≠ ids machine.allocated) (spoilt : Spoilt machine.store id)
    : Spoilt next.store id := by
  intro record present
  rcases change.array_cases present with ⟨before, found, step⟩ | ⟨isNew, _⟩
  · obtain ⟨terminal, failed⟩ := spoilt before found
    cases step with
    | same | noted => exact ⟨terminal, failed⟩
    | settled now moves step =>
      rw [withReceipt_state]
      exact step.spoilt terminal failed
  · exact absurd isNew old

namespace Machine

/-- A spoilt array stays so through every write. -/
theorem spoilt_apply (fresh : FreshIds ids) {machine : Machine} (known : Known ids machine)
    (write : TaskArrayWrite) {index : Nat} (taken : index < machine.allocated)
    (spoilt : Spoilt machine.store (ids index))
    : Spoilt (machine.apply P ids write).2.store (ids index) := by
  have changes := apply_changes (P := P) (G := .free 0) fresh machine known (Nat.zero_le _) write
    (permits_free 0 machine.store write)
  refine (changes.preserves (motive := fun later => index < later.allocated ∧ Spoilt later.store
    (ids index)) (fun machine next before change => ?_) ⟨taken, spoilt⟩).2
  have old : ids index ≠ ids machine.allocated :=
    fun same => Nat.ne_of_lt before.1 (fresh.distinct same)
  exact ⟨before.1.trans_le change.allocated_le, change.spoilt old before.2⟩

end Machine

-- Owners

variable {name ns : String} {store : TaskArrays}

theorem TaskArrays.deploymentOwner_none
    : store.deploymentOwner name ns = none
      ↔ ∀ (operationId : String) (record : DeploymentRecord),
          store.deployments[operationId]? = some record → record.blocks name ns = false := by
  simp only [deploymentOwner, Option.map_eq_none_iff, List.find?_eq_none, Prod.forall,
    mem_toList, Bool.not_eq_true]

theorem TaskArrays.deploymentOwner_some {operationId : String}
    (owner : store.deploymentOwner name ns = some operationId)
    : ∃ record,
        store.deployments[operationId]? = some record ∧ record.blocks name ns = true := by
  obtain ⟨⟨_, record⟩, found, rfl⟩ := Option.map_eq_some_iff.mp owner
  exact ⟨record, mem_toList.mp (List.mem_of_find?_eq_some found), @List.find?_some _ (fun entry :
    String × DeploymentRecord => entry.2.blocks name ns) _ _ found⟩

/-- Whatever a deployment owns is declared in its configuration. -/
theorem DeploymentRecord.blocks_workloads {record : DeploymentRecord}
    (blocks : record.blocks name ns = true)
    : (name, ns) ∈ Machine.workloads record.config := by
  simp only [DeploymentRecord.blocks, Bool.and_eq_true, Bool.or_eq_true, Option.any_eq_true,
    beq_iff_eq] at blocks
  obtain ⟨_, ⟨_, _, declared, rfl⟩ | ⟨_, declared, rfl, _⟩⟩ := blocks
  · exact List.mem_append_left _ (List.mem_map.mpr ⟨_, mem_toList.mpr declared, rfl⟩)
  · exact List.mem_append_right _ (List.mem_map.mpr ⟨_, mem_toList.mpr declared, rfl⟩)

/-- Before it commits, a deployment owns every job it declares. -/
theorem DeploymentRecord.blocks_of_committed {record final : DeploymentRecord}
    (uncommitted : record.appsCommitted = false) (committed : final.appsCommitted = true)
    (config : final.config = record.config) (completed : final.completed = record.completed)
    (blocks : final.blocks name ns = true)
    : record.blocks name ns = true := by
  simp only [DeploymentRecord.blocks, committed, config, completed, uncommitted, Bool.not_true,
    Bool.not_false, Bool.false_and, Bool.true_and, Bool.false_or, Bool.and_eq_true,
    Bool.or_eq_true, Option.any_eq_true, Bool.true_or, and_true] at blocks ⊢
  obtain ⟨unsettled, spec, declared, home, _⟩ := blocks
  exact ⟨unsettled, .inr ⟨spec, declared, home⟩⟩

/-- A deployment owns after a write only what it owned before it, unless the write begins it:
then nobody owned that before. -/
theorem RecordTurn.blocks {operationId : String} {write : TaskArrayWrite} {later : DeploymentRecord}
    (turn : RecordTurn P store operationId write later) (blocks : later.blocks name ns = true)
    : (∃ record,
        store.deployments[operationId]? = some record ∧ record.blocks name ns = true)
      ∨ store.deploymentOwner name ns = none
        ∧ ∃ config now, write = .deployBegin operationId config now := by
  cases turn with
  | same found => exact .inl ⟨later, found, blocks⟩
  | begun isWrite beginnable rest complete =>
    have declared := DeploymentRecord.blocks_workloads blocks
    rw [rest] at declared
    exact .inr ⟨beginnable.unowned (name, ns) declared, _, _, isWrite⟩
  | committed isWrite committable rest hooks =>
    refine .inl ⟨_, committable.found, ?_⟩
    exact DeploymentRecord.blocks_of_committed committable.uncommitted
      (by rw [rest]) (by rw [rest]) (by rw [rest]) blocks
  | cancelled isWrite found unsettled updated =>
    rw [updated] at blocks
    exact .inl ⟨_, found, blocks⟩
  | released outcome finishedAt isWrite found unsettled decided updated =>
    rw [updated] at blocks
    simp [DeploymentRecord.blocks] at blocks

-- Records

/-- The runs in the records of deployments: their ids have been taken, and ordinary jobs have
none before the apps are committed. -/
structure Enlisted (ids : Nat → Nat) (machine : Machine) : Prop where
  hooks : ∀ {operationId : String} {record : DeploymentRecord} {name : String} {id : Nat},
    machine.store.deployments[operationId]? = some record
    → record.hookRuns[name]? = some id
    → ∃ index < machine.allocated, ids index = id
  ordinary : ∀ {operationId : String} {record : DeploymentRecord},
    machine.store.deployments[operationId]? = some record
    → record.appsCommitted = false
    → record.jobRuns = ∅

theorem Change.enlisted (known : Known ids machine)
    (change : Change P ids G machine next) (enlisted : Enlisted ids machine)
    : Enlisted ids next := by
  have still : ∀ {id : Nat}, (∃ index < machine.allocated, ids index = id)
      → ∃ index < next.allocated, ids index = id := by
    rintro _ ⟨index, early, rfl⟩
    exact ⟨index, early.trans_le change.allocated_le, rfl⟩
  constructor
  · intro operationId record name id present admitted
    rcases change.deployment_cases present with
      found | ⟨_, _, _, rfl, _⟩ | ⟨before, found, step, _⟩
    · exact still (enlisted.hooks found admitted)
    · simp at admitted
    · cases step with
      | @hook hookName hookId spec run declared isHook isRun named home trigger uncommitted =>
        rcases get_insert_cases admitted with ⟨rfl, rfl⟩ | before
        · exact still (known.runs isRun)
        · exact still (enlisted.hooks found before)
      | _ => exact still (enlisted.hooks found admitted)
  · intro operationId record present uncommitted
    rcases change.deployment_cases present with
      found | ⟨_, _, _, rfl, _⟩ | ⟨before, found, step, _⟩
    · exact enlisted.ordinary found uncommitted
    · rfl
    · have prior : before.appsCommitted = false → before.jobRuns = ∅ := enlisted.ordinary found
      cases step with
      | hook _ _ _ _ _ _ earlier => exact prior earlier
      | commit => cases uncommitted
      | ordinary _ _ _ _ _ _ _ committed =>
        rw [show before.appsCommitted = false from uncommitted] at committed
        cases committed
      | cancel => exact prior uncommitted
      | release => exact prior uncommitted

-- Every run of writes

namespace Machine

/-- What holds of the deployments of every store that writes lead to. -/
structure Governed (ids : Nat → Nat) (machine : Machine) : Prop where
  enlisted : Enlisted ids machine
  /-- No two unsettled deployments own the same workload. -/
  exclusive : ∀ {operationId other : String} {record rival : DeploymentRecord}
      {name ns : String},
    machine.store.deployments[operationId]? = some record
    → machine.store.deployments[other]? = some rival
    → record.blocks name ns = true
    → rival.blocks name ns = true
    → operationId = other
  /-- Every hook has a run. -/
  covered : ∀ {operationId : String} {record : DeploymentRecord} {name : String}
      {spec : JobSpec},
    machine.store.deployments[operationId]? = some record
    → record.config.job[name]? = some spec
    → spec.runBefore ≠ []
    → record.hookRuns.contains name = true
  /-- A settled deployment stays decided. -/
  decided : ∀ {operationId : String} {record : DeploymentRecord},
    machine.store.deployments[operationId]? = some record
    → record.completed = true
    → Decided machine.store record

variable {machine : Machine} {record : DeploymentRecord}

section

variable (fresh : FreshIds ids)
include fresh

/-- A decision outlives every write. -/
theorem decided_apply (known : Known ids machine) (write : TaskArrayWrite)
    (hooks : ∀ (name : String) (id : Nat),
      record.hookRuns[name]? = some id → ∃ index < machine.allocated, ids index = id)
    (decided : Decided machine.store record)
    : Decided (machine.apply P ids write).2.store record := by
  rcases decided with committed | cancelled | ⟨name, id, admitted, spoilt⟩
  · exact .inl committed
  · exact .inr (.inl cancelled)
  · obtain ⟨_, taken, rfl⟩ := hooks name id admitted
    exact .inr (.inr ⟨name, _, admitted, spoilt_apply fresh known write taken spoilt⟩)

theorem enlisted_apply (known : Known ids machine)
    (enlisted : Enlisted ids machine) (write : TaskArrayWrite)
    : Enlisted ids (machine.apply P ids write).2 := by
  have changes := apply_changes (P := P) (G := .free 0) fresh machine known (Nat.zero_le _) write
    (permits_free 0 machine.store write)
  exact (changes.preserves (motive := fun later => Known ids later ∧ Enlisted ids later)
    (fun _ _ before change =>
      ⟨change.known fresh before.1, change.enlisted before.1 before.2⟩) ⟨known, enlisted⟩).2

theorem Governed.apply (known : Known ids machine)
    (governed : Governed ids machine) (write : TaskArrayWrite)
    : Governed ids (machine.apply P ids write).2 := by
  have turn : ∀ {operationId : String} {later : DeploymentRecord},
      (machine.apply P ids write).2.store.deployments[operationId]? = some later
      → RecordTurn P machine.store operationId write later :=
    apply_turn fresh known
  have stays : ∀ {operationId : String} {record : DeploymentRecord},
      machine.store.deployments[operationId]? = some record
      → Decided machine.store record
      → Decided (machine.apply P ids write).2.store record :=
    fun found decided => decided_apply fresh known write
      (fun _ _ admitted => governed.enlisted.hooks found admitted) decided
  refine ⟨enlisted_apply fresh known governed.enlisted write, ?_, ?_, ?_⟩
  · intro operationId other record rival name ns present presentRival blocks blocksRival
    rcases (turn present).blocks blocks with ⟨mine, isMine, blocked⟩ | ⟨unowned, _, _, begins⟩
    · rcases (turn presentRival).blocks blocksRival with
        ⟨theirs, isTheirs, also⟩ | ⟨unowned, _⟩
      · exact governed.exclusive isMine isTheirs blocked also
      · rw [deploymentOwner_none.mp unowned operationId mine isMine] at blocked
        cases blocked
    · rcases (turn presentRival).blocks blocksRival with
        ⟨theirs, isTheirs, also⟩ | ⟨_, _, _, same⟩
      · rw [deploymentOwner_none.mp unowned other theirs isTheirs] at also
        cases also
      · rw [begins] at same
        cases same
        rfl
  · intro operationId later name spec present declared isHook
    cases turn present with
    | same found => exact governed.covered found declared isHook
    | begun isWrite beginnable rest complete =>
      rw [rest] at declared
      exact complete name spec declared isHook
    | @committed now record isWrite committable rest hooks =>
      have sameConfig : later.config = record.config := by rw [rest]
      exact hooks name (governed.covered committable.found (sameConfig ▸ declared) isHook)
    | @cancelled now record isWrite found unsettled updated =>
      subst updated
      have prior : record.hookRuns.contains name = true :=
        governed.covered found declared isHook
      exact prior
    | @released record outcome finishedAt isWrite found unsettled decided updated =>
      subst updated
      have prior : record.hookRuns.contains name = true :=
        governed.covered found declared isHook
      exact prior
  · intro operationId later present completed
    cases turn present with
    | same found => exact stays found (governed.decided found completed)
    | begun isWrite beginnable rest complete =>
      rw [rest] at completed
      cases completed
    | committed isWrite committable rest hooks => exact .inl (by rw [rest])
    | cancelled isWrite found unsettled updated => exact .inr (.inl (by rw [updated]))
    | @released record outcome finishedAt isWrite found unsettled decided updated =>
      have kept : Decided (machine.apply P ids write).2.store record := stays found decided
      subst updated
      exact kept

theorem governed_run (writes : List TaskArrayWrite)
    : Governed ids (run P ids {} writes) :=
  Meets.induction (motive := Governed ids) fresh
    (fun _ write known governed _ => governed.apply fresh known write) known_initial
    ⟨⟨by simp, by simp⟩, by simp, by simp, by simp⟩ (meets_trivial {} writes)

/-- A decided deployment's apps stay as they are, published or not, for as long as its record is
retained; by induction on the writes. -/
theorem committed_of_decided (known : Known ids machine)
    (governed : Governed ids machine) {operationId : String}
    (found : machine.store.deployments[operationId]? = some record)
    (decided : Decided machine.store record) (writes : List TaskArrayWrite)
    (retained : ∀ done, done <+: writes
      → ∃ kept, (run P ids machine done).store.deployments[operationId]? = some kept)
    : ∀ later,
        (run P ids machine writes).store.deployments[operationId]? = some later
        → later.appsCommitted = record.appsCommitted := by
  induction writes generalizing machine record with
  | nil =>
    intro later present
    rw [show (run P ids machine []) = machine from rfl, found] at present
    cases present
    rfl
  | cons write rest ih =>
    intro later present
    obtain ⟨kept, isKept⟩ := retained [write] (List.prefix_iff_eq_take.mpr rfl)
    replace isKept : (machine.apply P ids write).2.store.deployments[operationId]? = some kept :=
      isKept
    have stays : Decided (machine.apply P ids write).2.store record :=
      decided_apply fresh known write (fun _ _ admitted => governed.enlisted.hooks found admitted)
        decided
    -- The write neither commits the record nor undoes the decision.
    obtain ⟨same, still⟩ : kept.appsCommitted = record.appsCommitted
        ∧ Decided (machine.apply P ids write).2.store kept := by
      cases apply_turn fresh known isKept with
      | same again =>
        rw [found] at again
        cases again
        exact ⟨rfl, stays⟩
      | begun isWrite beginnable rest complete =>
        rw [beginnable.absent] at found
        cases found
      | @committed now prior isWrite committable updated hooks =>
        obtain rfl : prior = record := Option.some.inj (committable.found.symm.trans found)
        exfalso
        rcases decided with committed | cancelled | ⟨name, id, admitted, spoilt⟩
        · rw [committable.uncommitted] at committed
          cases committed
        · rw [committable.uncancelled] at cancelled
          cases cancelled
        · obtain ⟨array, present, succeeded⟩ := committable.succeeded name id admitted
          exact (spoilt array present).2 succeeded
      | @cancelled now prior isWrite again unsettled updated =>
        obtain rfl : prior = record := Option.some.inj (again.symm.trans found)
        subst updated
        exact ⟨rfl, .inr (.inl rfl)⟩
      | @released prior outcome finishedAt isWrite again unsettled due updated =>
        obtain rfl : prior = record := Option.some.inj (again.symm.trans found)
        subst updated
        exact ⟨rfl, stays⟩
    rw [← same]
    refine ih (Known.apply fresh known write) (governed.apply fresh known write) isKept still ?_
      later present
    intro done before
    exact retained (write :: done) (List.cons_prefix_cons.mpr ⟨rfl, before⟩)

/-- An accepted cancellation decides the deployment. -/
theorem decided_of_deployCancel (known : Known ids machine)
    (governed : Governed ids machine) {operationId : String} {now : Nat} {answer : TaskArrayApplied}
    (accepted : (machine.apply P ids (.deployCancel operationId now)).1 = .ok answer)
    (present : (machine.apply P ids (.deployCancel operationId now)).2.store.deployments[
      operationId]? = some record)
    : Decided (machine.apply P ids (.deployCancel operationId now)).2.store record := by
  by_cases completed : record.completed = true
  · exact (governed.apply fresh known (.deployCancel operationId now)).decided present completed
  replace accepted : (machine.applyTransaction P ids (.deployCancel operationId now)).1
      = .ok answer := accepted
  replace present : (machine.applyTransaction P ids (.deployCancel operationId now)
      ).2.store.deployments[operationId]? = some record := present
  rcases @applyTransaction_cases P ids machine (.deployCancel operationId now) with
    ⟨⟨_, isRefused⟩, _⟩ | ⟨_, _, applied⟩
  · rw [isRefused] at accepted
    cases accepted
  rw [applied] at accepted present
  simp only [applyDeployment, deployCancel] at accepted present
  split at present
  · rename_i missing
    simp only [missing] at accepted
    cases accepted
  rename_i found
  simp only [found] at accepted
  split at present
  · rename_i settled
    rw [found] at present
    cases present
    exact absurd settled completed
  rename_i unsettled
  rw [if_neg unsettled] at accepted
  split at present
  · rename_i stopped
    rw [stopped] at accepted
    cases accepted
  · simp only [putDeployment, get_insert_self] at present
    cases present
    exact .inr (.inl rfl)

end

end Machine

-- The runs of a deployment

/-- A run of this job that a deployment asked for. -/
def RunRecord.IsHook (operationId ns name : String) (run : RunRecord) : Prop :=
  run.name = name ∧ run.ns = ns ∧ run.trigger = .hook operationId

/-- A guard under which a deployment starts no run of this job. -/
def Guard.without (operationId ns name : String) : Guard :=
  { Guard.free 0 with
    admits := fun home other trigger =>
      ¬ (home = ns ∧ other = name ∧ trigger = .hook operationId) }

namespace Machine

variable {machine : Machine} {operationId ns name : String}

section

variable (fresh : FreshIds ids)
include fresh

/-- A deployment's run of a job was there before a write that does not admit it. -/
theorem isHook_before (known : Known ids machine) {write : TaskArrayWrite} {id : Nat}
    {run : RunRecord} (barred : ¬ write.Admits machine.store ns name (.hook operationId))
    (present : (machine.apply P ids write).2.store.jobs.runs[id]? = some run)
    (asked : run.IsHook operationId ns name)
    : ∃ prior, machine.store.jobs.runs[id]? = some prior ∧ prior.IsHook operationId ns name := by
  have changes := apply_changes (P := P) (G := .without operationId ns name) fresh machine known
    (Nat.zero_le _) write (permits_of {
      admits := fun home other trigger admits same => barred <| by
        obtain ⟨rfl, rfl, rfl⟩ := same
        exact admits })
  refine Changes.preserves
    (motive := fun later => ∀ run,
      later.store.jobs.runs[id]? = some run
      → run.IsHook operationId ns name
      → ∃ prior, machine.store.jobs.runs[id]? = some prior ∧ prior.IsHook operationId ns name)
    ?_ changes (fun run found asked => ⟨run, found, asked⟩) run present asked
  intro middle next before change run present asked
  rcases change.run_cases present with ⟨earlier, _, found, rfl⟩ | ⟨_, _, _, _, admissible, _⟩
  · exact before earlier found asked
  · exact absurd ⟨asked.2.1, asked.1, asked.2.2⟩ admissible.allowed

/-- A publication that leaves the record uncommitted was refused, or had been made before. -/
theorem store_of_uncommitted {now : Nat} {kept : DeploymentRecord}
    (present : (machine.apply P ids (.deployCommitted operationId now)
      ).2.store.deployments[operationId]? = some kept)
    (uncommitted : kept.appsCommitted = false)
    : (machine.apply P ids (.deployCommitted operationId now)).2.store = machine.store := by
  have transaction : machine.apply P ids (.deployCommitted operationId now)
      = machine.applyTransaction P ids (.deployCommitted operationId now) := rfl
  rw [transaction] at present ⊢
  rcases @applyTransaction_cases P ids machine (.deployCommitted operationId now) with
    ⟨_, same⟩ | ⟨answer, accepted, applied⟩
  · exact same
  rw [applied] at present ⊢
  rcases deployCommitted_accepted fresh accepted with same | ⟨_, _, _, grown, _⟩
  · exact congrArg (·.store) same
  · cases grown.found.symm.trans present
    rw [grown.rest] at uncommitted
    cases uncommitted

/-- While a deployment is not committed, only a put in its own name starts a run of one of its
ordinary jobs; by cases on what the write may admit. -/
theorem isHook_of_uncommitted (known : Known ids machine) {record kept : DeploymentRecord}
    {write : TaskArrayWrite} {id : Nat} {run : RunRecord}
    (found : machine.store.deployments[operationId]? = some record)
    (present : (machine.apply P ids write).2.store.deployments[operationId]? = some kept)
    (uncommitted : kept.appsCommitted = false)
    (running : (machine.apply P ids write).2.store.jobs.runs[id]? = some run)
    (asked : run.IsHook operationId ns name)
    : (∃ prior, machine.store.jobs.runs[id]? = some prior ∧ prior.IsHook operationId ns name)
      ∨ ∃ definition now,
          write = .job (.put name ns definition (some (.hook operationId)) now) := by
  by_cases admits : write.Admits machine.store ns name (.hook operationId)
  · cases write with
    | job write =>
      cases write with
      | put other home definition trigger now =>
        obtain ⟨rfl, rfl, rfl⟩ := admits
        exact .inr ⟨definition, now, rfl⟩
      | fire => cases admits.1
    | registerJobs => cases admits
    | deployBegin =>
      obtain ⟨_, same, absent, _⟩ := admits
      cases same
      rw [absent] at found
      cases found
    | deployCommitted =>
      obtain ⟨_, _, same, _⟩ := admits
      cases same
      rw [store_of_uncommitted fresh present uncommitted] at running
      exact .inl ⟨run, running, asked⟩
    | _ => cases admits
  · exact .inl (isHook_before fresh known admits running asked)

/-- Along a run of writes after which a retained deployment is still not committed, its runs of
ordinary jobs were there at the start or were put in its own name; by induction on the writes.
-/
theorem isHook_along (known : Known ids machine) (governed : Governed ids machine)
    {record : DeploymentRecord} (found : machine.store.deployments[operationId]? = some record)
    (writes : List TaskArrayWrite)
    (retained : ∀ done, done <+: writes
      → ∃ kept, (run P ids machine done).store.deployments[operationId]? = some kept)
    {later : DeploymentRecord}
    (present : (run P ids machine writes).store.deployments[operationId]? = some later)
    (uncommitted : later.appsCommitted = false) {id : Nat} {started : RunRecord}
    (running : (run P ids machine writes).store.jobs.runs[id]? = some started)
    (asked : started.IsHook operationId ns name)
    : (∃ prior, machine.store.jobs.runs[id]? = some prior ∧ prior.IsHook operationId ns name)
      ∨ ∃ definition now,
          .job (.put name ns definition (some (.hook operationId)) now) ∈ writes := by
  induction writes generalizing machine record with
  | nil => exact .inl ⟨started, running, asked⟩
  | cons write rest ih =>
    obtain ⟨kept, isKept⟩ := retained [write] (List.prefix_iff_eq_take.mpr rfl)
    replace isKept : (machine.apply P ids write).2.store.deployments[operationId]? = some kept :=
      isKept
    have known' := Known.apply (P := P) fresh known write
    have governed' := governed.apply (P := P) fresh known write
    have retained' : ∀ done, done <+: rest → ∃ kept,
        (run P ids (machine.apply P ids write).2 done).store.deployments[operationId]?
          = some kept :=
      fun done before => retained (write :: done) (List.cons_prefix_cons.mpr ⟨rfl, before⟩)
    -- Once committed, the record would stay so.
    have stillOpen : kept.appsCommitted = false := by
      by_contra committed
      have stays := committed_of_decided fresh known' governed' isKept
        (.inl (by simpa using committed)) rest retained' later present
      rw [uncommitted] at stays
      exact committed stays.symm
    rcases ih known' governed' isKept retained' present running with
      ⟨prior, isPrior, itsTrigger⟩ | ⟨definition, now, listed⟩
    · rcases isHook_of_uncommitted fresh known found isKept stillOpen isPrior itsTrigger with
        before | ⟨definition, now, rfl⟩
      · exact .inl before
      · exact .inr ⟨definition, now, List.mem_cons_self⟩
    · exact .inr ⟨definition, now, List.mem_cons_of_mem _ listed⟩

end

end Machine

/-- The workload that a submission or a job transaction names. -/
def TaskArrayWrite.workload? : TaskArrayWrite → Option (String × String)
  | register name ns _ _ _ => some (name, ns)
  | registerManifest name ns _ _ _ => some (name, ns)
  | job write => some (write.name, write.ns)
  | _ => none

/-- The deployment that a job transaction acts for. -/
def TaskArrayWrite.operation? : TaskArrayWrite → Option String
  | job write => write.operation
  | _ => none

namespace Machine

/-- A transaction on a workload that another deployment owns changes nothing. -/
theorem applyJob_of_owned {machine : Machine} {write : JobWrite}
    (owned : machine.store.ownedByOther write = true)
    : (machine.applyJob P ids write).2 = machine := by
  unfold applyJob
  cases decided : machine.store.decideJob P write with
  | error refused => rfl
  | ok effect =>
    cases decideJob_decides decided with
    | superseded | existing => rfl
    | recorded _ free | admitRun _ free =>
      rw [owned] at free
      cases free

/-- An unsettled deployment keeps everybody else away from the workloads it owns. -/
theorem apply_of_owned {machine : Machine} (governed : Governed ids machine)
    {operationId : String} {record : DeploymentRecord} {name ns : String}
    (found : machine.store.deployments[operationId]? = some record)
    (blocks : record.blocks name ns = true) {write : TaskArrayWrite}
    (names : write.workload? = some (name, ns)) (other : write.operation? ≠ some operationId)
    : (machine.apply P ids write).2 = machine := by
  obtain ⟨owner, isOwner⟩ : ∃ owner, machine.store.deploymentOwner name ns = some owner := by
    rw [← Option.ne_none_iff_exists']
    intro unowned
    rw [deploymentOwner_none.mp unowned operationId record found] at blocks
    cases blocks
  cases write with
  | register | registerManifest =>
    cases names
    simp only [apply, isOwner, Option.isSome_some, if_true]
  | job write =>
    cases names
    refine applyJob_of_owned ?_
    obtain ⟨_, foundRival, blocksRival⟩ := deploymentOwner_some isOwner
    obtain rfl := governed.exclusive found foundRival blocks blocksRival
    simp only [ownedByOther, isOwner, Option.any_some, bne_iff_ne, ne_eq]
    exact fun same => other same.symm
  | _ => cases names

/-- A deployment of an app, a hook that runs before it, and a job that runs after it. -/
def sampleConfig : Config :=
  { app := (∅ : BTreeMap String AppSpec).insert "web" { image := some "web:1" }
    job := ((∅ : BTreeMap String JobSpec).insert "migrate"
      { sampleTemplate with runBefore := ["app.web"] }).insert "notify" sampleTemplate }

/-- What the platform answers about that configuration and its two jobs. -/
def sampleDeployPlatform : Platform :=
  { samplePlatform with
    configJson := fun _ =>
      "\x7b\"app\":\x7b\"web\":\x7b\"image\":\"web:1\",\"replicas\":1\x7d\x7d,\"job\":\x7b"
        ++ "\"migrate\":\x7b\"runtime\":\"process\",\"run_before\":[\"app.web\"],"
        ++ "\"exec\":\"/bin/true\"\x7d,"
        ++ "\"notify\":\x7b\"runtime\":\"process\",\"exec\":\"/bin/true\"\x7d\x7d\x7d"
    definitionJson := fun definition =>
      "\x7b\"template\":\x7b\"runtime\":\"process\",\"namespace\":\"default\","
        ++ "\"exec\":\"/bin/true\"\x7d,\"tasks\":\x7b\"count\":1,\"chunk_size\":1024,"
        ++ (if definition.hook then
            "\"max_attempts\":1,\"task_timeout_secs\":600\x7d,\"cron\":null,"
              ++ "\"replay_unknown\":false,\"hook\":true\x7d"
          else
            "\"max_attempts\":4,\"task_timeout_secs\":0\x7d,\"cron\":null,"
              ++ "\"replay_unknown\":false\x7d")
    sha256 := fun text =>
      if text.utf8ByteSize = 187 then
        "a3db339df21383a2603e602118289f1969a037fdbbde85d3022493383732a4af"
      else "5430fe3a733cb79b8483041f76b8ecbddf204a6c71d6fae227d4b1ab93bf24cb" }

def sampleOperation : String := "0123456789abcdef0123456789abcdef"

def sampleBegin : TaskArrayWrite := .deployBegin sampleOperation sampleConfig 0

/-- The hook runs on a node and succeeds. -/
def hookSucceeds : List TaskArrayWrite :=
  [.progress (.sync 1 [] [("node-a", .fromRange 0 0)] 1),
    .progress (.sync 1 [("node-a", successReport 0 1 1)] [] 2)]

/-- A put of the job in the deployment's own name. -/
def ownPut : TaskArrayWrite :=
  .job (.put "notify" "default" (.fromSpec { sampleTemplate with ns := some "default" })
    (some (.hook sampleOperation)) 3)

def sampleBegun : Machine :=
  run sampleDeployPlatform (· + 1) {} [sampleBegin]

def ownPutApplied : Machine :=
  (sampleBegun.apply sampleDeployPlatform (· + 1) ownPut).2

/-- The put is accepted while the deployment is not committed. -/
theorem ownPutApplied_starts
    : sampleBegun.store.jobs.runs[2]? = none
      ∧ (∃ record, sampleBegun.store.deployments[sampleOperation]? = some record)
      ∧ (∃ record : DeploymentRecord,
          ownPutApplied.store.deployments[sampleOperation]? = some record
          ∧ record.appsCommitted = false
          ∧ record.config.job["notify"]? = some sampleTemplate)
      ∧ ∃ started : RunRecord, ownPutApplied.store.jobs.runs[2]? = some started
          ∧ started.IsHook sampleOperation "default" "notify" := by
  have before : sampleBegun.store.jobs.runs[2]? = none
      ∧ sampleBegun.store.deployments[sampleOperation]?.isSome := by
    decide +kernel
  have after : ownPutApplied.store.deployments[sampleOperation]?.map (fun record =>
        (record.appsCommitted, record.config.job["notify"]?))
      = some (false, some sampleTemplate)
      ∧ ownPutApplied.store.jobs.runs[2]?.map (fun run => (run.name, run.ns, run.trigger))
        = some ("notify", "default", .hook sampleOperation) := by
    decide +kernel
  obtain ⟨record, found, facts⟩ := Option.map_eq_some_iff.mp after.1
  obtain ⟨started, running, asked⟩ := Option.map_eq_some_iff.mp after.2
  simp only [Prod.mk.injEq] at facts asked
  exact ⟨before.1, Option.isSome_iff_exists.mp before.2, ⟨record, found, facts⟩,
    ⟨started, running, asked⟩⟩

theorem retained_singleton {machine : Machine} {operationId : String} {write : TaskArrayWrite}
    {record later : DeploymentRecord}
    (found : machine.store.deployments[operationId]? = some record)
    (present : (run P ids machine [write]).store.deployments[operationId]? = some later)
    : ∀ done, done <+: [write]
      → ∃ kept, (run P ids machine done).store.deployments[operationId]? = some kept := by
  intro done before
  rcases List.prefix_cons_iff.mp before with rfl | ⟨rest, rfl, inside⟩
  · exact ⟨record, found⟩
  · obtain rfl := List.prefix_nil.mp inside
    exact ⟨later, present⟩

def hookSucceeded : Machine :=
  run sampleDeployPlatform (· + 1) {} (sampleBegin :: hookSucceeds)

def samplePublished : Machine :=
  run sampleDeployPlatform (· + 1) {}
    (sampleBegin :: hookSucceeds ++ [.deployCommitted sampleOperation 3])

def sampleCancelled : Called TaskArrayApplied :=
  sampleBegun.apply sampleDeployPlatform (· + 1) (.deployCancel sampleOperation 1)

theorem hookSucceeded_record
    : ∃ record : DeploymentRecord,
        hookSucceeded.store.deployments[sampleOperation]? = some record
        ∧ record.appsCommitted = false
        ∧ record.blocks "notify" "default" = true
        ∧ record.config = sampleConfig := by
  have evaluated : hookSucceeded.store.deployments[sampleOperation]?.map (fun record =>
      (record.appsCommitted, record.blocks "notify" "default", record.config))
      = some (false, true, sampleConfig) := by
    decide +kernel
  obtain ⟨record, found, facts⟩ := Option.map_eq_some_iff.mp evaluated
  simp only [Prod.mk.injEq] at facts
  exact ⟨record, found, facts⟩

theorem samplePublished_record
    : ∃ record : DeploymentRecord,
        samplePublished.store.deployments[sampleOperation]? = some record
        ∧ record.appsCommitted = true
        ∧ record.jobRuns ≠ ∅ := by
  have evaluated : samplePublished.store.deployments[sampleOperation]?.map (fun record =>
      (record.appsCommitted, record.jobRuns.isEmpty)) = some (true, false) := by
    decide +kernel
  obtain ⟨record, found, facts⟩ := Option.map_eq_some_iff.mp evaluated
  simp only [Prod.mk.injEq] at facts
  refine ⟨record, found, facts.1, fun empty => ?_⟩
  simp [empty] at facts

theorem sampleCancelled_record
    : sampleCancelled.1 = .ok .cancelled
      ∧ (∃ record : DeploymentRecord,
          sampleCancelled.2.store.deployments[sampleOperation]? = some record
          ∧ record.appsCommitted = false)
      ∧ ∃ later,
          (run sampleDeployPlatform (· + 1) sampleCancelled.2 [.deployCommitted sampleOperation 3]
            ).store.deployments[sampleOperation]? = some later := by
  have evaluated : sampleCancelled.1.toOption = some .cancelled
      ∧ sampleCancelled.2.store.deployments[sampleOperation]?.map (·.appsCommitted) = some false
      ∧ (run sampleDeployPlatform (· + 1) sampleCancelled.2 [.deployCommitted sampleOperation 3]
          ).store.deployments[sampleOperation]?.isSome := by
    decide +kernel
  obtain ⟨answered, cancelled, kept⟩ := evaluated
  refine ⟨?_, Option.map_eq_some_iff.mp cancelled, Option.isSome_iff_exists.mp kept⟩
  cases answer : sampleCancelled.1 with
  | error refused => simp [answer, Except.toOption] at answered
  | ok given => simpa [answer, Except.toOption] using answered

end Machine

end Reliaburger
