import Reliaburger.Store.TerminalStatus
import Reliaburger.TaskArray.WellFormed

/-! A run that wants its unknown outcomes acknowledged gets work back only through an
acknowledgement that names the exact chunk generations, and no other run of its job starts while
an outcome is unknown.
-/

namespace Reliaburger

open IndexRangeSet TaskArrayState TaskArrays

variable {P : Platform} {ids : Nat → Nat} {G : Guard}

-- The queue of one array

namespace TaskArrayState

variable {chunk : Nat} {state : TaskArrayState}

theorem queued_stop {reason : StopReason} (queued : chunk ∈ (state.stop reason).queued)
    : chunk ∈ state.queued := by
  unfold stop at queued
  split at queued
  · exact queued
  · exact absurd queued (not_mem_empty chunk)

/-- Grants and reports only take chunks off the queue. -/
theorem queued_step_of_plain {op : ArrayOp} (plain : op.isPlain = true)
    (queued : chunk ∈ (state.step op).queued)
    : chunk ∈ state.queued := by
  cases op with
  | grant node chunks =>
    rcases step_grant state node chunks with same | ⟨_, _, _, _, same⟩
    · rwa [same] at queued
    · rw [same] at queued
      exact (mem_removeRanges.mp queued).1
  | complete node result =>
    rcases step_complete state node result with same | ⟨_, _, same | stops⟩
    · rwa [same] at queued
    · rwa [same, tally_queued] at queued
    · rw [stops] at queued
      exact tally_queued state node result ▸ queued_stop queued
  | requeueNode => cases plain
  | cancel => cases plain
  | refuseUnrunnable => cases plain

theorem queued_run_of_plain {ops : List ArrayOp} (plain : ∀ op ∈ ops, op.isPlain = true)
    (queued : chunk ∈ (state.run ops).queued)
    : chunk ∈ state.queued := by
  induction ops generalizing state with
  | nil => exact queued
  | cons op rest ih =>
    exact queued_step_of_plain (plain op List.mem_cons_self)
      (ih (List.forall_mem_cons.mp plain).2 queued)

/-- What a node gives back is what it held. -/
theorem queued_requeueNode {node : NodeId} (queued : chunk ∈ (state.requeueNode node).2.queued)
    : chunk ∈ state.queued ∨ ∃ held, state.heldBy node = some held ∧ chunk ∈ held := by
  unfold requeueNode at queued
  split at queued
  · exact .inl queued
  rename_i held holds
  simp only at queued
  split at queued
  · exact .inl queued
  rcases mem_extendFrom.mp queued with before | returned
  · exact .inl before
  · exact .inr ⟨held, holds, returned⟩

end TaskArrayState

variable {record : TaskArrayRecord} {id : Nat} {machine next : Machine}

/-- Only taking work back adds to a queue. -/
theorem RecordStep.queued {requeues : Prop} {updated : TaskArrayRecord}
    (step : RecordStep G requeues record updated) (never : ¬ requeues) {chunk : Nat}
    (queued : chunk ∈ updated.state.queued)
    : chunk ∈ record.state.queued := by
  cases step with
  | run ops plain => exact queued_run_of_plain plain queued
  | stop reason why asked allowed => exact queued_stop queued
  | requeue node allowed => exact absurd allowed never

-- Nothing comes back

/-- The array under a taken id belongs to a run that wants acknowledgements, and its queue has
not grown beyond `queue`. -/
structure Withholds (id : Nat) (queue : IndexRangeSet) (store : TaskArrays)
    (record : TaskArrayRecord) : Prop where
  queued : ∀ chunk ∈ record.state.queued, chunk ∈ queue
  run : ∃ run, store.jobs.runs[id]? = some run ∧ run.replayUnknown = false

/-- Without an acknowledgement no change returns work to the queue; by cases on what the change
does to the array. -/
theorem Change.withholds (silent : ∀ id node digest, ¬ G.replays id node digest)
    (change : Change P ids G machine next) (old : id ≠ ids machine.allocated)
    {queue : IndexRangeSet} (before : ∀ record,
      machine.store.arrays[id]? = some record → Withholds id queue machine.store record)
    : ∀ record, next.store.arrays[id]? = some record → Withholds id queue next.store record := by
  intro record present
  rcases change.array_cases present with ⟨earlier, found, _⟩ | ⟨isNew, _⟩
  swap
  · exact absurd isNew old
  obtain ⟨queued, run, admitted, wants⟩ := before earlier found
  obtain ⟨_, kept, _⟩ := change.run_kept admitted found present old
  refine ⟨?_, _, kept, wants⟩
  have unchanged : next.store.arrays[id]? = machine.store.arrays[id]?
      → ∀ chunk ∈ record.state.queued, chunk ∈ queue := by
    intro same
    rw [present, found] at same
    cases same
    exact queued
  cases change with
  | prune now retention =>
    refine unchanged ?_
    rw [present, machine.store.pruneWithin_arrays _ _ present]
  | admitRun | enrol => exact unchanged (BTreeMap.get_insert_ne _ _ (Ne.symm old))
  | @advance other array updated now moves same step =>
    simp only [settle_arrays] at present
    split at present
    · rename_i here
      subst here
      rw [found] at same
      cases same
      cases present
      intro chunk member
      rw [withReceipt_state] at member
      refine queued chunk (step.queued (fun allowed => ?_) member)
      rw [allowed run admitted] at wants
      cases wants
    · rw [present] at found
      cases found
      exact queued
  | replay now moves _ _ _ _ allowed => exact absurd allowed (silent _ _ _)
  | @quota other array reason moves same =>
    rcases BTreeMap.get_insert_cases present with ⟨rfl, rfl⟩ | before
    · cases found.symm.trans same
      exact queued
    · cases found.symm.trans before
      exact queued
  | _ => exact unchanged rfl

-- Nothing else starts

/-- A run of the job is active, and wants an outcome acknowledged that is unknown. -/
structure Awaits (store : TaskArrays) (id : Nat) (run : RunRecord) (record : TaskArrayRecord)
    : Prop where
  admitted : store.jobs.runs[id]? = some run
  wants : run.replayUnknown = false
  unknown : run.unknownOwners.isEmpty = false
  found : store.arrays[id]? = some record
  active : record.state.status.isTerminal = false

/-- Where nothing is moved on, a run that awaits an acknowledgement goes on doing so. -/
theorem Awaits.change (frozen : ¬ G.moves) (change : Change P ids G machine next) {run : RunRecord}
    (old : id ≠ ids machine.allocated) (unfinished : record.terminalAtEpochSecs = none)
    (awaits : Awaits machine.store id run record)
    : Awaits next.store id run record := by
  obtain ⟨after, present⟩ := change.unfinished_kept awaits.found unfinished
  have isSame : after = record := by
    rcases change.array_cases present with ⟨_, found, step⟩ | ⟨isNew, _⟩
    · rw [awaits.found] at found
      cases found
      cases step with
      | same => rfl
      | settled now moves step => exact absurd moves frozen
      | noted reason moves => exact absurd moves frozen
    · exact absurd isNew old
  subst isSame
  obtain ⟨_, kept, rfl | moves⟩ := change.run_kept awaits.admitted awaits.found present old
  · exact ⟨kept, awaits.wants, awaits.unknown, present, awaits.active⟩
  · exact absurd moves frozen

/-- No run of the job is admitted beside one that awaits an acknowledgement. -/
theorem Awaits.excludes {run : RunRecord} (awaits : Awaits machine.store id run record)
    (change : Change P ids G machine next) {other : Nat} {started : RunRecord}
    (present : next.store.jobs.runs[other]? = some started) (sameName : started.name = run.name)
    (sameNs : started.ns = run.ns)
    : ∃ before owners,
        machine.store.jobs.runs[other]? = some before
        ∧ started = { before with unknownOwners := owners } := by
  rcases change.run_cases present with before | ⟨_, _, _, _, admissible, _⟩
  · exact before
  have acknowledged := admissible.acknowledged id run record awaits.admitted sameName.symm
    sameNs.symm awaits.wants awaits.found awaits.active
  rw [awaits.unknown] at acknowledged
  cases acknowledged

-- Every run of writes

/-- A guard under which no acknowledgement takes work back. -/
def Guard.silent : Guard :=
  { Guard.free 0 with replays := fun _ _ _ => False }

def Guard.frozen : Guard :=
  { Guard.free 0 with moves := False }

def Guard.closed : Guard :=
  { Guard.free 0 with admits := fun _ _ _ => False }

namespace Machine

variable {machine : Machine}

/-- Work of a run that wants acknowledgements comes back only through an acknowledgement of
the exact generations the node holds. -/
theorem returned_by_replay (fresh : FreshIds ids) (known : Known ids machine)
    (write : TaskArrayWrite) {id : Nat} {run : RunRecord} {record later : TaskArrayRecord}
    {chunk : Nat} (admitted : machine.store.jobs.runs[id]? = some run)
    (wants : run.replayUnknown = false) (found : machine.store.arrays[id]? = some record)
    (present : (machine.apply P ids write).2.store.arrays[id]? = some later)
    (away : chunk ∉ record.state.queued) (back : chunk ∈ later.state.queued)
    : ∃ node digest now held,
        write = .replay id node digest now
        ∧ record.state.heldBy node = some held
        ∧ chunk ∈ held
        ∧ machine.store.ownerFingerprint P id node = some digest := by
  by_cases acknowledges : ∃ other node digest now, write = .replay other node digest now
  · obtain ⟨other, node, digest, now, rfl⟩ := acknowledges
    have applied : (machine.apply P ids (.replay other node digest now)).2
        = (machine.publish (machine.store.replay P other node digest now)).2 := rfl
    rw [applied] at present
    cases replayed : machine.store.replay P other node digest now with
    | error refused =>
      rw [replayed] at present
      rw [show (machine.publish (.error refused)).2 = machine from rfl, found] at present
      cases present
      exact absurd back away
    | ok outcome =>
      obtain ⟨_, array, _, _, current, isArray, settled⟩ := replay_ok replayed
      rw [replayed] at present
      rw [show (machine.publish (.ok outcome)).2.store = outcome.2 from rfl, settled,
        settle_arrays] at present
      split at present
      · rename_i here
        subst here
        rw [found] at isArray
        cases isArray
        cases present
        rw [withReceipt_state] at back
        rcases queued_requeueNode back with before | ⟨held, holds, member⟩
        · exact absurd before away
        · exact ⟨node, digest, now, held, rfl, holds, member, current⟩
      · rw [show (machine.store.acknowledge other _ node).arrays = machine.store.arrays from rfl,
          found] at present
        cases present
        exact absurd back away
  · -- Any other write leaves the queue a part of what it was.
    have changes := apply_changes (P := P) (G := .silent) fresh machine known (Nat.zero_le _) write
      (permits_of {
        replays := fun other node digest now same =>
          acknowledges ⟨other, node, digest, now, same⟩ })
    obtain ⟨index, taken, rfl⟩ := known.runs admitted
    have withheld := Changes.preserves
      (motive := fun machine =>
        index < machine.allocated
        ∧ ∀ array,
            machine.store.arrays[ids index]? = some array
            → Withholds (ids index) record.state.queued machine.store array)
      (fun machine next before change => by
        have old : ids index ≠ ids machine.allocated :=
          fun same => Nat.ne_of_lt before.1 (fresh.distinct same)
        exact ⟨before.1.trans_le change.allocated_le,
          change.withholds (fun _ _ _ => id) old before.2⟩)
      changes
    refine absurd ((withheld ⟨taken, fun array isArray => ?_⟩).2 later present |>.queued chunk back)
      away
    rw [found] at isArray
    cases isArray
    exact ⟨fun _ => id, run, admitted, wants⟩

/-- No write admits a run beside one of the same job that awaits an acknowledgement. -/
theorem awaiting_excludes (fresh : FreshIds ids) (known : Known ids machine)
    (upright : machine.Upright) (write : TaskArrayWrite) {id : Nat} {run : RunRecord}
    {record : TaskArrayRecord} (awaits : Awaits machine.store id run record) {other : Nat}
    {started : RunRecord}
    (present : (machine.apply P ids write).2.store.jobs.runs[other]? = some started)
    (sameName : started.name = run.name) (sameNs : started.ns = run.ns)
    : ∃ retained, machine.store.jobs.runs[other]? = some retained := by
  cases admission : write.isAdmission with
  | false =>
    have changes := apply_changes (P := P) (G := .closed) fresh machine known (Nat.zero_le _)
      write (permits_of { admits := fun _ _ _ admits => by simp [admits.isAdmission] at admission })
    refine Changes.preserves
      (motive := fun later => ∀ started, later.store.jobs.runs[other]? = some started → ∃ retained,
        machine.store.jobs.runs[other]? = some retained)
      ?_ changes (fun started found => ⟨started, found⟩) started present
    intro middle next before change started present
    rcases change.run_cases present with ⟨earlier, _, found, _⟩ | ⟨_, _, _, _, admissible, _⟩
    · exact before earlier found
    · exact admissible.allowed.elim
  | true =>
    have changes := apply_changes (P := P) (G := .frozen) fresh machine known (Nat.zero_le _)
      write (permits_of { moves := fun moves => by simp [admission] at moves })
    obtain ⟨index, taken, rfl⟩ := known.runs awaits.admitted
    have unfinished := (upright.states _ record awaits.found).unfinished awaits.active
    refine (Changes.preserves
      (motive := fun later =>
        index < later.allocated
        ∧ Awaits later.store (ids index) run record
        ∧ ∀ started,
            later.store.jobs.runs[other]? = some started
            → started.name = run.name
            → started.ns = run.ns
            → ∃ retained, machine.store.jobs.runs[other]? = some retained)
      ?_ changes ⟨taken, awaits, fun started found _ _ => ⟨started, found⟩⟩).2.2
      started present sameName sameNs
    rintro middle _ ⟨early, awaiting, before⟩ change
    have old : ids index ≠ ids middle.allocated :=
      fun same => Nat.ne_of_lt early (fresh.distinct same)
    refine ⟨early.trans_le change.allocated_le,
      awaiting.change (fun moves => moves) change old unfinished, ?_⟩
    intro started present sameName sameNs
    obtain ⟨earlier, owners, found, rfl⟩ := awaiting.excludes change present sameName sameNs
    exact before earlier found sameName sameNs

/-- Along every run of writes: work of a run that wants acknowledgements comes back only through
an acknowledgement of the exact generations the node holds, its unknown owners hold some of its
chunks, and while one of them is unknown no other run of the job is admitted. The writes of a
tick count one by one.
-/
theorem unknown_outcomes_are_acknowledged (fresh : FreshIds ids) (writes : List TaskArrayWrite)
    (write : TaskArrayWrite)
    : (∀ (id : Nat) (run : RunRecord) (record later : TaskArrayRecord) (chunk : Nat),
        (Machine.run P ids {} writes).store.jobs.runs[id]? = some run
        → run.replayUnknown = false
        → (Machine.run P ids {} writes).store.arrays[id]? = some record
        → ((Machine.run P ids {} writes).apply P ids write).2.store.arrays[id]? = some later
        → chunk ∉ record.state.queued
        → chunk ∈ later.state.queued
        → ∃ node now held,
            chunk ∈ held
            ∧ record.state.heldBy node = some held
            ∧ write
              = .replay id node
                (P.sha256 (P.generationsJson id node
                  (held.iter.map (fun chunk => (chunk, record.state.attemptOf chunk))))) now)
      ∧ (∀ (id : Nat) (run : RunRecord),
          (Machine.run P ids {} writes).store.jobs.runs[id]? = some run
          → ∃ record,
              (Machine.run P ids {} writes).store.arrays[id]? = some record
              ∧ ∀ node ∈ run.unknownOwners,
                  ∃ held chunk, record.state.heldBy node = some held ∧ chunk ∈ held)
      ∧ (∀ (id : Nat) (run : RunRecord) (record : TaskArrayRecord),
          Awaits (Machine.run P ids {} writes).store id run record
          → ∀ (other : Nat) (started : RunRecord),
              ((Machine.run P ids {} writes).apply P ids write).2.store.jobs.runs[other]?
                = some started
              → started.name = run.name
              → started.ns = run.ns
              → ∃ retained,
                  (Machine.run P ids {} writes).store.jobs.runs[other]? = some retained)
      ∧ ∀ inner,
          write = .tick inner
          → ((Machine.run P ids {} writes).apply P ids write).2 = Machine.run P ids {} writes
            ∨ ((Machine.run P ids {} writes).apply P ids write).2
              = Machine.run P ids {} (writes ++ inner) := by
  have known := known_run (P := P) fresh writes
  have upright := upright_run (P := P) fresh writes
  refine ⟨?_, ?_, ?_, ?_⟩
  · intro id run record later chunk admitted wants found present away back
    obtain ⟨node, _, now, held, rfl, holds, member, current⟩ :=
      returned_by_replay fresh known write admitted wants found present away back
    refine ⟨node, now, held, member, holds, ?_⟩
    simp only [ownerFingerprint, found, holds, Option.map_some, Option.some.injEq] at current
    rw [current]
  · intro id run admitted
    obtain ⟨record, found, _, _, held⟩ := (upright.backed id run admitted).array
    refine ⟨record, found, fun node member => ?_⟩
    obtain ⟨chunks, holds⟩ := Option.isSome_iff_exists.mp (held node member)
    have wellFormed := (upright.states id record found).reachable.wellFormed
    obtain ⟨_, chunk, inside⟩ := wellFormed.holders node chunks holds
    exact ⟨chunks, chunk, holds, inside⟩
  · intro id run record awaits other started present sameName sameNs
    exact awaiting_excludes fresh known upright write awaits present sameName sameNs
  · rintro inner rfl
    rcases @tick_run P ids (run P ids {} writes) inner with same | applied
    · exact .inl same
    · exact .inr (applied.trans (by simp only [run, List.foldl_append]))

-- One run with an unknown outcome

/-- A host command that must not be repeated without asking. -/
def sampleDefinition : JobDefinition where
  template := { sampleTemplate with ns := some "default" }
  tasks := .withCount 1
  cron := none
  replayUnknown := false
  hook := false

/-- What the platform answers about that job, and about the first chunk of run 1 on `node-a`.
Nothing else here is serialised. -/
def sampleJobPlatform : Platform :=
  { samplePlatform with
    definitionJson := fun _ =>
      "\x7b\"template\":\x7b\"runtime\":\"process\",\"namespace\":\"default\","
        ++ "\"exec\":\"/bin/true\"\x7d,\"tasks\":\x7b\"count\":1,\"chunk_size\":1024,"
        ++ "\"max_attempts\":3,\"task_timeout_secs\":600\x7d,\"cron\":null,"
        ++ "\"replay_unknown\":false\x7d"
    generationsJson := fun _ _ _ => "[1,\"node-a\",[[0,1]]]"
    sha256 := fun text =>
      if text = "[1,\"node-a\",[[0,1]]]" then
        "4936799e33e9b997b3ea2f3ea4b9de268732b271113b88a1efb17ffbf075d0f4"
      else "67144c152f090e2af9b3ea6e862d2f370a78af5fda707d33a1a7eeecd292b9e5" }

/-- A manual run of the job is handed to a node, which is then lost. -/
def lostWrites : List TaskArrayWrite :=
  [.job (.put "web" "default" sampleDefinition (some (.manual "first")) 0),
    .progress (.sync 1 [] [("node-a", .fromRange 0 0)] 1),
    .progress (.unknown 1 "node-a")]

/-- The operator's acknowledgement of the first chunk's first attempt on the lost node. -/
def acknowledgement : TaskArrayWrite :=
  .replay 1 "node-a" "4936799e33e9b997b3ea2f3ea4b9de268732b271113b88a1efb17ffbf075d0f4" 2

/-- The lost chunk comes back through the acknowledgement, and until then a second manual run is
not admitted. -/
theorem lost_work_is_acknowledged
    : (∃ record later,
        (run sampleJobPlatform (· + 1) {} lostWrites).store.arrays[1]? = some record
        ∧ ((run sampleJobPlatform (· + 1) {} lostWrites).apply sampleJobPlatform (· + 1)
          acknowledgement).2.store.arrays[1]? = some later
        ∧ 0 ∉ record.state.queued
        ∧ 0 ∈ later.state.queued
        ∧ ∃ node now held,
            0 ∈ held
            ∧ record.state.heldBy node = some held
            ∧ acknowledgement
              = .replay 1 node
                (sampleJobPlatform.sha256 (sampleJobPlatform.generationsJson 1 node
                  (held.iter.map (fun chunk => (chunk, record.state.attemptOf chunk))))) now)
      ∧ ∀ (other : Nat) (started : RunRecord),
          ((run sampleJobPlatform (· + 1) {} lostWrites).apply sampleJobPlatform (· + 1)
            (.job (.put "web" "default" sampleDefinition (some (.manual "second")) 3))
            ).2.store.jobs.runs[other]? = some started
          → started.name = "web"
          → started.ns = "default"
          → ∃ retained,
              (run sampleJobPlatform (· + 1) {} lostWrites).store.jobs.runs[other]?
                = some retained := by
  have lost : ((run sampleJobPlatform (· + 1) {} lostWrites).store.arrays[1]?.map (fun record =>
      (record.state.queued.contains 0, record.state.status.isTerminal))) = some (false, false) := by
    decide +kernel
  have returned : (((run sampleJobPlatform (· + 1) {} lostWrites).apply sampleJobPlatform (· + 1)
      acknowledgement).2.store.arrays[1]?.map (fun record => record.state.queued.contains 0))
      = some true := by
    decide +kernel
  have admitted : ((run sampleJobPlatform (· + 1) {} lostWrites).store.jobs.runs[1]?.map
      (fun run => (run.name, run.ns, run.replayUnknown, run.unknownOwners.isEmpty)))
      = some ("web", "default", false, false) := by
    decide +kernel
  obtain ⟨record, found, facts⟩ := Option.map_eq_some_iff.mp lost
  obtain ⟨later, present, back⟩ := Option.map_eq_some_iff.mp returned
  obtain ⟨run, isRun, provenance⟩ := Option.map_eq_some_iff.mp admitted
  simp only [Prod.mk.injEq] at facts provenance
  obtain ⟨away, active⟩ := facts
  obtain ⟨name, ns, wants, unknown⟩ := provenance
  have gone : 0 ∉ record.state.queued := by
    rw [← contains_iff, away]
    simp
  refine ⟨⟨record, later, found, present, gone, contains_iff.mp back, ?_⟩, ?_⟩
  · exact (unknown_outcomes_are_acknowledged freshIds_succ lostWrites acknowledgement).1 1 run
      record later 0 isRun wants found present gone (contains_iff.mp back)
  intro other started listed isName isNs
  exact (unknown_outcomes_are_acknowledged freshIds_succ lostWrites _).2.2.1 1 run record
    ⟨isRun, wants, unknown, found, active⟩ other started listed (isName.trans name.symm)
    (isNs.trans ns.symm)

end Machine

end Reliaburger
