import Reliaburger.Store.Changes

/-! Every write is a sequence of elementary changes, whether it is accepted or refused. -/

namespace Reliaburger

open Checks BTreeMap JobCatalog TaskArrays

namespace TaskArrays

theorem mem_active {store : TaskArrays} {id : Nat} {record : TaskArrayRecord}
    : (id, record) ∈ store.active
      ↔ store.arrays[id]? = some record ∧ record.state.status.isTerminal = false := by
  simp only [active, List.mem_filter, mem_toList, Bool.not_eq_true']

end TaskArrays

namespace Machine

variable {P : Platform} {ids : Nat → Nat} {G : Guard}

-- Job transactions

def PermitsJob (G : Guard) : JobWrite → Prop
  | .put name ns definition trigger now =>
    (∀ cause, trigger = some cause → G.admits ns name cause)
    ∧ (definition.cron.isSome = true → G.schedules ns name now)
  | .fire name ns _ minute _ => G.admits ns name (.cron minute) ∧ G.fires ns name minute

/-- Preparing a transaction on a pruned store is one change of its catalog, or none; a planned
run may then be admitted. -/
theorem prepare_changes (ids : Nat → Nat) (machine : Machine) {write : JobWrite}
    {active : List Nat} {plan : JobPlan} {jobs : JobCatalog} (permits : PermitsJob G write)
    (listed : ∀ (id : Nat) (array : TaskArrayRecord),
      machine.store.arrays[id]? = some array
      → array.state.status.isTerminal = false
      → id ∈ active)
    (prepared : machine.store.jobs.prepare P write active = .ok (plan, jobs))
    : Changes P ids G machine { machine with store := { machine.store with jobs } }
      ∧ ∀ definition run now,
          plan = .register definition run now
          → ∃ source,
              jobs.definition run.ns run.name = some source
              ∧ source.definition = definition
              ∧ (∀ minute, run.trigger = .cron minute → source.lastObservedMinute = some minute)
              ∧ ∀ state,
                  TaskArrayState.new definition.tasks now = .ok state
                  → machine.store.checkCapacity run.ns (.of (some run.trigger)) 1 = .ok ()
                  → Admissible P G { machine.store with jobs }
                    (TaskArrays.newRecord run.name run.ns definition.template state)
                    run source := by
  obtain ⟨nsLabel, nameLabel⟩ := prepare_labels prepared
  cases write with
  | put name ns definition trigger now =>
    rcases prepare_put prepared with
      ⟨_, id, run, _, _, _, _, rfl, rfl⟩ | ⟨revision, recorded, planned⟩
    · exact ⟨.refl, by simp⟩
    refine ⟨.single (.define nsLabel nameLabel recorded permits.2), ?_⟩
    rcases planned with ⟨_, rfl⟩ | ⟨_, asked, nameable, free, unowned, room, rfl⟩
    · simp
    rintro _ _ _ ⟨⟩
    obtain ⟨_, _, rfl⟩ := recorded.started
    refine ⟨_, get_insert_self _ _ _, rfl, ?_, ?_⟩
    · intro minute isCron
      have notCron := nameable.notCron
      simp only [newRun] at isCron
      simp [isCron, RunTrigger.isCron] at notCron
    intro state created capacity
    refine ⟨nsLabel, nameLabel, get_insert_self _ _ _, rfl, ⟨_, _, created, rfl⟩,
      permits.1 _ asked, nameable.valid, room, capacity, fun _ => triggered_eq_none.mp free, ?_, ?_⟩
    · intro minute isCron
      have notCron := nameable.notCron
      simp only [newRun] at isCron
      simp [isCron, RunTrigger.isCron] at notCron
    · intro id other array found sameName sameNs _ present running
      exact unknownOwned_eq_false.mp unowned id other found
        (listed id array present running) sameName sameNs
  | fire name ns revision minute now =>
    obtain ⟨_, found, ⟨rfl, rfl⟩ | ⟨_, claims, _, rfl, planned⟩⟩ :=
      prepare_fire prepared
    · exact ⟨.refl, by simp⟩
    refine ⟨.single (.claim nsLabel nameLabel found claims permits.2), ?_⟩
    rcases planned with rfl | ⟨clear, room, rfl⟩
    · simp
    rintro _ _ _ ⟨⟩
    have revised := claims.current
    subst revised
    refine ⟨_, get_insert_self _ _ _, rfl, ?_, ?_⟩
    · rintro _ ⟨⟩
      rfl
    intro state created capacity
    refine ⟨nsLabel, nameLabel, get_insert_self _ _ _, rfl, ⟨_, _, created, rfl⟩,
      permits.1, ?_, room, capacity, by simp [newRun, RunTrigger.isCron], ?_, ?_⟩
    · simp [newRun, RunTrigger.validate, Int.not_lt.mpr claims.nonneg]
    · rintro _ ⟨⟩
      exact ⟨permits.2, rfl⟩
    · intro id other array present sameName sameNs conservative _ _
      exact overlaps_eq_false clear present sameName sameNs conservative

/-- A decided transaction prunes the store and then changes its catalog; a run it admits may
be admitted to the result. -/
theorem decideJob_changes (ids : Nat → Nat) (machine : Machine) {write : JobWrite}
    {effect : JobEffect}
    (permits : PermitsJob G write) (decided : machine.store.decideJob P write = .ok effect)
    : (∀ store, effect = .recorded store → Changes P ids G machine { machine with store })
      ∧ ∀ store record run,
          effect = .admitRun store record run
          → Changes P ids G machine { machine with store }
            ∧ ∃ source, Admissible P G store record run source := by
  unfold decideJob at decided
  split at decided
  · cases decided
    simp
  simp only at decided
  split at decided
  · cases decided
    simp
  have pruned : Changes P ids G machine
      { machine with store := machine.store.pruneAt write.nowEpochSecs } :=
    .single (.prune _ _)
  have listed : ∀ (id : Nat) (array : TaskArrayRecord),
      (machine.store.pruneAt write.nowEpochSecs).arrays[id]? = some array
      → array.state.status.isTerminal = false
      → id ∈ machine.store.active.map Prod.fst := by
    intro id array present running
    have before := machine.store.pruneWithin_arrays _ _ present
    exact List.mem_map.mpr ⟨(id, array), mem_active.mpr ⟨before, running⟩, rfl⟩
  split at decided
  · cases decided
  · cases decided
    simp
  · rename_i prepared
    split at decided
    · cases decided
    cases decided
    have changed := (prepare_changes ids
      { machine with store := machine.store.pruneAt write.nowEpochSecs } permits listed
      prepared).1
    refine ⟨?_, by simp⟩
    rintro _ ⟨⟩
    exact pruned.trans changed
  · rename_i prepared
    split at decided
    · cases decided
    obtain ⟨changed, planned⟩ := prepare_changes ids
      { machine with store := machine.store.pruneAt write.nowEpochSecs } permits listed prepared
    obtain ⟨source, defined, rfl, cursor, admissible⟩ := planned _ _ _ rfl
    unfold decideRun at decided
    split at decided
    · cases decided
    rename_i state created
    split at decided
    · rename_i capacity
      cases decided
      refine ⟨by simp, ?_⟩
      rintro _ _ _ ⟨⟩
      exact ⟨pruned.trans changed, source, admissible state created capacity⟩
    · split at decided
      · rename_i minute isCron
        cases decided
        refine ⟨?_, by simp⟩
        rintro _ ⟨⟩
        exact (pruned.trans changed).tail (.skip defined (cursor minute isCron))
      · cases decided

/-- A job transaction is a sequence of changes, by cases on what was decided. -/
theorem applyJob_changes (machine : Machine) {write : JobWrite} (permits : PermitsJob G write)
    : Changes P ids G machine (machine.applyJob P ids write).2 := by
  unfold applyJob
  split
  · exact .refl
  · exact .refl
  · exact .refl
  · rename_i store decided
    exact (decideJob_changes ids machine permits decided).1 store rfl
  · rename_i store record run decided
    obtain ⟨changed, _, admissible⟩ :=
      (decideJob_changes ids machine permits decided).2 store record run rfl
    exact changed.tail (.admitRun admissible)

-- Progress

def PermitsProgress (G : Guard) (store : TaskArrays) (write : ProgressWrite) : Prop :=
  G.moves
  ∧ match write with
    | .unrunnable id _ _ => ∀ record, store.arrays[id]? = some record → G.stops record.state
    | _ => True

variable {id now : Nat} {machine : Machine} {store : TaskArrays} {answer : TaskArrayApplied}
  {node : NodeId}

theorem advance_changes {change : TaskArrayRecord → TaskArrayRecord} (moves : G.moves)
    (steps : ∀ record,
      machine.store.arrays[id]? = some record
      → RecordStep G
          (∀ run, machine.store.jobs.runs[id]? = some run → run.replayUnknown = true)
          record (change record)) (advanced : machine.store.advance id change now = .ok store)
    : Change P ids G machine { machine with store } := by
  unfold advance at advanced
  split at advanced
  · cases advanced
  rename_i record found
  cases advanced
  exact .advance now moves found (steps record found)

theorem sync_changes {results : List (NodeId × ChunkResult)}
    {grants : List (NodeId × IndexRangeSet)} (moves : G.moves)
    (synced : machine.store.sync id results grants now = .ok (answer, store))
    : Change P ids G machine { machine with store } := by
  unfold sync at synced
  split at synced
  · cases synced
  rename_i found
  simp only [Except.ok.injEq, Prod.mk.injEq, TaskArrayState.runCounting_fst,
    ← TaskArrayState.run_append] at synced
  rw [← synced.2]
  refine .advance now moves found (.run _ ?_)
  intro op member
  rcases List.mem_append.mp member with reported | granted
  · obtain ⟨_, _, rfl⟩ := List.mem_map.mp reported
    rfl
  · obtain ⟨_, _, rfl⟩ := List.mem_map.mp granted
    rfl

theorem requeue_changes (moves : G.moves)
    (requeued : machine.store.requeue id node now = .ok (answer, store))
    : Change P ids G machine { machine with store } := by
  unfold requeue at requeued
  split at requeued
  · cases requeued
  rename_i replayable
  split at requeued
  · cases requeued
  rename_i found
  simp only [Except.ok.injEq, Prod.mk.injEq] at requeued
  rw [← requeued.2]
  refine .advance now moves found (.requeue node ?_)
  intro run admitted
  simpa [admitted] using replayable

theorem unknown_changes (moves : G.moves)
    (noted : machine.store.unknown id node = .ok (answer, store))
    : Change P ids G machine { machine with store } := by
  unfold unknown at noted
  split at noted
  · cases noted
  rename_i found
  split at noted
  · cases noted
  rename_i holds
  split at noted
  · cases noted
  rename_i admitted
  split at noted
  · cases noted
  rename_i few
  cases noted
  refine .unknown moves found admitted ?_ ?_
  · simpa [Option.isSome_iff_ne_none] using holds
  simp only [Bool.and_eq_true, decide_eq_true_eq, Bool.not_eq_true', not_and_or,
    Bool.not_eq_false, not_le] at few
  exact few

theorem unrunnable_changes {reason : String} (moves : G.moves)
    (allowed : ∀ record, machine.store.arrays[id]? = some record → G.stops record.state)
    (refused : machine.store.unrunnable id reason now = .ok (answer, store))
    : Change P ids G machine { machine with store } := by
  unfold unrunnable at refused
  split at refused
  · cases refused
  cases advanced : machine.store.advance id (refuseRecord reason) now with
  | error _ => simp [advanced, Except.map] at refused
  | ok next =>
    simp only [advanced, Except.map, Except.ok.injEq, Prod.mk.injEq] at refused
    rw [← refused.2]
    refine advance_changes moves (fun record found => ?_) advanced
    unfold refuseRecord
    split
    · exact .stop .unrunnable (some reason) (by simp) (allowed record found)
    · exact .run [] (by simp)

theorem applyProgress_changes {write : ProgressWrite}
    (permits : PermitsProgress G machine.store write)
    (applied : machine.store.applyProgress write = .ok (answer, store))
    : Change P ids G machine { machine with store } := by
  obtain ⟨moves, stops⟩ := permits
  cases write with
  | sync id results grants now => exact sync_changes moves applied
  | requeue id node now => exact requeue_changes moves applied
  | unknown id node => exact unknown_changes moves applied
  | unrunnable id reason now => exact unrunnable_changes moves stops applied
  | quotaBlocked id reason =>
    simp only [applyProgress, quotaBlocked] at applied
    split at applied
    · cases applied
    rename_i found
    cases applied
    exact .quota _ moves found

/-- An accepted acknowledgement names an unknown owner and the exact generations it holds. -/
theorem replay_ok {next : TaskArrays} {digest : String}
    (replayed : store.replay P id node digest now = .ok (answer, next))
    : ∃ run record,
        store.jobs.runs[id]? = some run
        ∧ run.unknownOwners.contains node = true
        ∧ store.ownerFingerprint P id node = some digest
        ∧ store.arrays[id]? = some record
        ∧ next
          = (store.acknowledge id run node).settle id
            { record with state := (record.state.requeueNode node).2 } now := by
  unfold replay at replayed
  split at replayed
  · cases replayed
  rename_i run admitted
  split at replayed
  · cases replayed
  rename_i unknown
  split at replayed
  · cases replayed
  rename_i current
  split at replayed
  · cases replayed
  rename_i record found
  simp only [Except.ok.injEq, Prod.mk.injEq] at replayed
  exact ⟨run, record, admitted, by simpa using unknown, by simpa using current, found,
    replayed.2.symm⟩

end Machine

-- Stops and ticks

variable {P : Platform} {G : Guard}

namespace TaskArrays

def MayStop (G : Guard) (store : TaskArrays) (targets : List Nat) : Prop :=
  ∀ id ∈ targets, ∀ record,
    store.arrays[id]? = some record → G.moves ∧ G.stops record.state

def runsOf (store : TaskArrays) (name ns : String) : List Nat :=
  (store.jobs.runs.toList.filter (fun entry =>
    entry.2.name == name && entry.2.ns == ns)).map Prod.fst

/-- The guard allows each write of a tick when its turn comes. -/
def PermitsTick (G : Guard) (store : TaskArrays) : List ProgressWrite → Prop
  | [] => True
  | write :: rest =>
    Machine.PermitsProgress G store write
    ∧ match store.applyProgress write with
      | .ok (_, next) => next.PermitsTick G rest
      | .error _ => store.PermitsTick G rest

/-- Cancelling one array leaves whatever may be stopped as it is; the cancelled one has
stopped, so it may be stopped again. -/
theorem MayStop.settle {store : TaskArrays} {targets : List Nat}
    (allowed : store.MayStop G targets) (id : Nat) (record : TaskArrayRecord) (now : Nat)
    (moves : G.moves) (stopped : record.state.stopped ≠ none)
    : (store.settle id record now).MayStop G targets := by
  intro other listed after present
  rw [settle_arrays] at present
  split at present
  · cases present
    rw [withReceipt_state]
    exact ⟨moves, G.stops_stopped _ stopped⟩
  · exact allowed other listed after present

end TaskArrays

namespace Machine

theorem cancel_changes {ids : Nat → Nat} {machine : Machine} {id now : Nat}
    {store : TaskArrays} (allowed : machine.store.MayStop G [id])
    (cancelled : machine.store.advance id TaskArrays.cancelRecord now = .ok store)
    : Change P ids G machine { machine with store } := by
  obtain ⟨record, found⟩ : ∃ record, machine.store.arrays[id]? = some record := by
    unfold advance at cancelled
    split at cancelled
    · cases cancelled
    · exact ⟨_, ‹_›⟩
  refine advance_changes (allowed id (by simp) record found).1 (fun record found => ?_) cancelled
  exact .stop .cancelled record.unrunnable (by simp) (allowed id (by simp) record found).2

/-- Cancelling arrays in turn is one change for each that is found. -/
theorem cancelAll_changes (ids : Nat → Nat) (now : Nat) (targets : List Nat)
    (machine : Machine) (allowed : machine.store.MayStop G targets)
    : Changes P ids G machine
      { machine with store := (machine.store.cancelAll now targets).2 } := by
  induction targets generalizing machine with
  | nil => exact .refl
  | cons id rest ih =>
    unfold cancelAll
    split
    · exact .refl
    rename_i next cancelled
    have first : Change P ids G machine { machine with store := next } :=
      cancel_changes (fun other listed => allowed other (by simp_all)) cancelled
    refine .head first (ih { machine with store := next } ?_)
    have rest : machine.store.MayStop G rest :=
      (List.forall_mem_cons.mp allowed).2
    unfold advance at cancelled
    split at cancelled
    · cases cancelled
    rename_i record found
    cases cancelled
    refine rest.settle _ _ _ (allowed id List.mem_cons_self record found).1 ?_
    exact Option.isSome_iff_ne_none.mp (TaskArrayState.stopped_stop _ _)

theorem cancelAll_deployments (now : Nat) (targets : List Nat) (store : TaskArrays)
    : (store.cancelAll now targets).2.deployments = store.deployments := by
  induction targets generalizing store with
  | nil => rfl
  | cons id rest ih =>
    unfold cancelAll
    split
    · rfl
    rename_i next cancelled
    rw [ih next]
    unfold advance at cancelled
    split at cancelled
    · cases cancelled
    · cases cancelled
      rfl

theorem cancelManifest_changes (ids : Nat → Nat) (machine : Machine) (batchId now : Nat)
    (allowed : ∀ manifest,
      machine.store.manifests[batchId]? = some manifest
      → machine.store.MayStop G (manifest.cohorts.map Prod.snd))
    : Changes P ids G machine (machine.cancelManifest batchId now).2 := by
  unfold cancelManifest
  split
  · exact .refl
  rename_i manifest found
  have cancelled := cancelAll_changes (P := P) ids now _ machine (allowed manifest found)
  split <;> (rename_i run; rwa [run] at cancelled)

theorem stopDefinition_changes (ids : Nat → Nat) (machine : Machine) (name ns : String)
    (forget : Bool) (now : Nat)
    (allowed : machine.store.MayStop G (machine.store.runsOf name ns))
    : Changes P ids G machine (machine.stopDefinition name ns forget now).2 := by
  unfold stopDefinition
  split
  · exact .refl
  rename_i jobs stopped
  have first : Change P ids G machine
      { machine with store := { machine.store with jobs } } := .stopDefinition stopped
  have cancelled := cancelAll_changes (P := P) (G := G) ids now
    ((jobs.runs.toList.filter (fun entry =>
      entry.2.name == name && entry.2.ns == ns)).map Prod.fst)
    { machine with store := { machine.store with jobs } }
  simp only [JobCatalog.stop_runs stopped] at cancelled ⊢
  have whole := Relation.ReflTransGen.head first (cancelled allowed)
  split <;> (rename_i run; rwa [run] at whole)

/-- A tick is one change for each write that is accepted. -/
theorem applyTick_changes (ids : Nat → Nat) (writes : List ProgressWrite) (machine : Machine)
    (permits : machine.store.PermitsTick G writes)
    : Changes P ids G machine
      { machine with store := (machine.store.applyTick writes).2 } := by
  induction writes generalizing machine with
  | nil => exact .refl
  | cons write rest ih =>
    obtain ⟨first, later⟩ := permits
    unfold applyTick
    split
    · rename_i next applied
      rw [applied] at later
      exact .head (applyProgress_changes first applied) (ih { machine with store := next } later)
    · rename_i applied
      rw [applied] at later
      exact ih machine later

end Machine

end Reliaburger
