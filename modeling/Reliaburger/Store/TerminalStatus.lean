import Reliaburger.Store.Arrays
import Reliaburger.TaskArray.GrantFencing

/-! A terminal status stays as it is unless something stops an array that had already run out of
work: stopping asks only whether the array was stopped before, so it turns an outcome that was
already decided into a cancellation.
-/

namespace Reliaburger

variable {P : Platform} {ids : Nat → Nat}

-- Calls

namespace TaskArrayState

/-- Calls keep a terminal status at every moment exactly when none of them stops the array, or
stopping it rewrites no outcome; by induction on the calls. -/
theorem run_keeps_terminal_iff {state : TaskArrayState}
    (terminal : state.status.isTerminal = true) (ops : List ArrayOp)
    : (∀ done, done <+: ops → (state.run done).status = state.status)
      ↔ state.Stoppable ∨ ∀ op ∈ ops, op.isStop = false := by
  induction ops with
  | nil => simp [run]
  | cons op rest ih =>
    constructor
    · intro kept
      by_cases stops : op.isStop = true
      · -- The stopped array shows it in its status, which is the one it had before.
        left
        have first : (state.step op).status = state.status :=
          kept [op] (List.prefix_iff_eq_take.mpr rfl)
        have isStopped : (state.step op).stopped ≠ none := by
          cases op with
          | cancel => exact Option.isSome_iff_ne_none.mp (stopped_stop _ _)
          | refuseUnrunnable => exact Option.isSome_iff_ne_none.mp (stopped_stop _ _)
          | _ => cases stops
        have stoppable := stoppable_of_stopped isStopped
        rwa [Stoppable, first] at stoppable
      · have first : state.step op = state :=
          step_of_terminal terminal (fun isStop => absurd isStop stops)
        have later : ∀ done, done <+: rest → (state.run done).status = state.status := by
          intro done before
          have whole := kept (op :: done) (List.cons_prefix_cons.mpr ⟨rfl, before⟩)
          simpa only [run, List.foldl_cons, first] using whole
        rcases ih.mp later with stoppable | spared
        · exact .inl stoppable
        · exact .inr (by simpa [stops] using spared)
    · intro spared done before
      have first : state.step op = state := by
        refine step_of_terminal terminal (fun stops => ?_)
        rcases spared with stoppable | none
        · exact stoppable
        · rw [none op List.mem_cons_self] at stops
          cases stops
      have later : state.Stoppable ∨ ∀ op ∈ rest, op.isStop = false :=
        spared.imp_right (fun none other member => none other (List.mem_cons_of_mem _ member))
      cases done with
      | nil => rfl
      | cons head tail =>
        obtain ⟨rfl, inside⟩ := List.cons_prefix_cons.mp before
        simpa only [run, List.foldl_cons, first] using ih.mpr later tail inside

end TaskArrayState

-- Writes

namespace TaskArrays

/-- Whether a tick stops no array that had run out of work when its turn comes. -/
def sparesTick (store : TaskArrays) : List ProgressWrite → Bool
  | [] => true
  | write :: rest =>
    (match write with
      | .unrunnable id _ _ => store.arrays[id]?.all (fun record => record.state.Stoppable)
      | _ => true)
    && match store.applyProgress write with
      | .ok (_, next) => next.sparesTick rest
      | .error _ => store.sparesTick rest

/-- Whether a write stops no array that had already run out of work. -/
def spares (store : TaskArrays) (write : TaskArrayWrite) : Bool :=
  (store.stoppedBy write).all (fun id =>
    store.arrays[id]?.all (fun record => record.state.Stoppable))
  && match write with
    | .tick writes => (writes.mapM TaskArrayWrite.progress?).all store.sparesTick
    | _ => true

end TaskArrays

/-- Arrays are stopped only while that rewrites no outcome. -/
def Guard.sparing (base : Nat) : Guard :=
  { Guard.free base with
    stops := TaskArrayState.Stoppable
    stops_stopped := fun _ => TaskArrayState.stoppable_of_stopped }

namespace TaskArrays

theorem permitsTick_of_spares (base : Nat) {store : TaskArrays} {writes : List ProgressWrite}
    (spared : store.sparesTick writes = true)
    : store.PermitsTick (.sparing base) writes := by
  induction writes generalizing store with
  | nil => trivial
  | cons write rest ih =>
    simp only [sparesTick, Bool.and_eq_true] at spared
    obtain ⟨first, later⟩ := spared
    refine ⟨?_, ?_⟩
    · cases write with
      | unrunnable id reason now =>
        refine ⟨trivial, fun record found => ?_⟩
        have stoppable : record.state.Stoppable := by simpa [found] using first
        exact stoppable
      | _ => exact ⟨trivial, trivial⟩
    · cases applied : store.applyProgress write with
      | ok outcome =>
        rw [applied] at later
        exact ih later
      | error refused =>
        rw [applied] at later
        exact ih later

theorem permits_of_spares (base : Nat) {store : TaskArrays} {write : TaskArrayWrite}
    (spared : store.spares write = true)
    : store.Permits (.sparing base) write := by
  simp only [spares, Bool.and_eq_true, List.all_eq_true] at spared
  obtain ⟨stops, ticks⟩ := spared
  refine ⟨?_, ?_⟩
  · intro id listed record found
    have stoppable : record.state.Stoppable := by simpa [found] using stops id listed
    exact ⟨trivial, stoppable⟩
  cases write with
  | tick writes =>
    intro progress carried
    exact permitsTick_of_spares base (by simpa [carried] using ticks)
  | job write => cases write <;> simp [Machine.PermitsJob, Guard.sparing, Guard.free]
  | deployBegin operationId config now => exact ⟨trivial, fun _ _ _ _ _ => trivial⟩
  | deployCommitted operationId now =>
    exact ⟨trivial, fun _ _ _ _ _ _ _ => ⟨fun _ => trivial, fun _ => trivial⟩⟩
  | progress write =>
    refine ⟨trivial, ?_⟩
    cases write with
    | unrunnable id reason now =>
      intro record found
      have stoppable : record.state.Stoppable := by
        simpa [found] using stops id (List.mem_singleton.mpr rfl)
      exact stoppable
    | _ => trivial
  | _ => simp [Guard.sparing, Guard.free]

end TaskArrays

namespace Machine

/-- The array under a taken id is in this state for as long as it is retained. -/
def StaysAt (ids : Nat → Nat) (index : Nat) (state : TaskArrayState) (machine : Machine)
    : Prop :=
  index < machine.allocated
  ∧ ∀ record, machine.store.arrays[ids index]? = some record → record.state = state

/-- A terminal array stays in its state along every run of writes that stop nothing which had
run out of work. -/
theorem StaysAt.run (fresh : FreshIds ids) {machine : Machine} (known : Known ids machine)
    {index : Nat} {state : TaskArrayState} (terminal : state.status.isTerminal = true)
    (stays : StaysAt ids index state machine) {writes : List TaskArrayWrite}
    (meets : Meets P ids (fun store write => store.spares write = true) machine writes)
    : StaysAt ids index state (Machine.run P ids machine writes) := by
  refine Meets.induction (motive := StaysAt ids index state) fresh ?_ known stays meets
  intro machine write known stays spared
  have changes := apply_changes (P := P) (G := .sparing 0) fresh machine known (Nat.zero_le _)
    write (TaskArrays.permits_of_spares 0 spared)
  refine Changes.preserves (motive := StaysAt ids index state) ?_ changes stays
  rintro _ _ ⟨early, holds⟩ change
  exact ⟨early.trans_le change.allocated_le,
    change.state_of_terminal fresh (fun _ => id) early terminal holds⟩

/-- A terminal status is final where nothing stops an array that had run out of work: for the
calls of one array this is exactly what it takes, and for the writes of the store it is enough.
-/
theorem terminal_status_final (fresh : FreshIds ids)
    : (∀ (state : TaskArrayState) (ops : List ArrayOp),
        state.Reachable
        → state.status.isTerminal = true
        → ((∀ done, done <+: ops → (state.run done).status = state.status)
          ↔ state.Stoppable ∨ ∀ op ∈ ops, op.isStop = false))
      ∧ ∀ (before after : List TaskArrayWrite) (id : Nat) (record : TaskArrayRecord),
          (run P ids {} before).store.arrays[id]? = some record
          → record.state.status.isTerminal = true
          → Meets P ids (fun store write => store.spares write = true) (run P ids {} before) after
          → ∀ later,
              (run P ids (run P ids {} before) after).store.arrays[id]? = some later
              → later.state.status = record.state.status := by
  refine ⟨fun state ops _ terminal => TaskArrayState.run_keeps_terminal_iff terminal ops, ?_⟩
  intro before after id record found terminal meets later present
  have known : Known ids (run P ids {} before) := known_run fresh before
  obtain ⟨index, taken, rfl⟩ := known.arrays found
  have stays : StaysAt ids index record.state (run P ids {} before) := by
    refine ⟨taken, fun other same => ?_⟩
    rw [found] at same
    exact congrArg _ (Option.some.inj same).symm
  exact congrArg _ ((stays.run fresh known terminal meets).2 later present)

-- One array that finishes

/-- A host command without arguments. -/
def sampleTemplate : JobSpec :=
  { runtime := .process, exec := some "/bin/true" }

/-- What the platform answers about the host command. Nothing else here serialises anything. -/
def samplePlatform : Platform where
  templateJson _ := "\x7b\"runtime\":\"process\",\"exec\":\"/bin/true\"\x7d"
  definitionJson _ := ""
  configJson _ := ""
  manifestJson _ _ _ := ""
  jobsJson _ := ""
  generationsJson _ _ _ := ""
  sha256 _ := ""
  validateEgressEntry _ := .ok ()
  validateApp _ _ := .ok ()
  validateNamespace _ _ := .ok ()
  validatePermission _ _ := .ok ()
  validateBuild _ _ := .ok ()
  checkPolicy _ _ := .ok ()

/-- One task is submitted, handed out, and reported as a success. -/
def finishingWrites : List TaskArrayWrite :=
  [.register "web" "default" sampleTemplate (.withCount 1) 0,
    .progress (.sync 1 [] [("node-a", .fromRange 0 0)] 1),
    .progress (.sync 1 [("node-a", TaskArrayState.successReport 0 1 1)] [] 2)]

/-- The array has succeeded, and cancelling it changes that. -/
theorem cancel_rewrites_success
    : ¬ ∀ (before after : List TaskArrayWrite) (id : Nat) (record later : TaskArrayRecord),
        (run samplePlatform (· + 1) {} before).store.arrays[id]? = some record
        → record.state.status.isTerminal = true
        → (run samplePlatform (· + 1) (run samplePlatform (· + 1) {} before) after
          ).store.arrays[id]? = some later
        → later.state.status = record.state.status := by
  intro final
  have succeeded : ((run samplePlatform (· + 1) {} finishingWrites).store.arrays[1]?.map
      (·.state.status)) = some .succeeded := by
    decide +kernel
  have cancelled : ((run samplePlatform (· + 1) (run samplePlatform (· + 1) {} finishingWrites)
      [.cancel 1 3]).store.arrays[1]?.map (·.state.status)) = some .cancelled := by
    decide +kernel
  obtain ⟨record, found, isSucceeded⟩ := Option.map_eq_some_iff.mp succeeded
  obtain ⟨later, present, isCancelled⟩ := Option.map_eq_some_iff.mp cancelled
  have same := final finishingWrites [.cancel 1 3] 1 record later found
    (by rw [isSucceeded]; rfl) present
  rw [isSucceeded, isCancelled] at same
  cases same

/-- A late report, a lost node, a prune within the retention window, and a cancelled array next
to the one that finished. -/
def laterWrites : List TaskArrayWrite :=
  [.progress (.sync 1 [("node-a", TaskArrayState.successReport 0 1 1)] [] 3),
    .progress (.requeue 1 "node-a" 3), .prune 10 3600,
    .register "other" "default" sampleTemplate (.withCount 1) 11, .cancel 2 12]

/-- The success survives the later writes, and the calls they make on its array. -/
theorem success_is_final
    : (∃ record later,
        (run samplePlatform (· + 1) {} finishingWrites).store.arrays[1]? = some record
        ∧ record.state.status = .succeeded
        ∧ (run samplePlatform (· + 1) (run samplePlatform (· + 1) {} finishingWrites) laterWrites
          ).store.arrays[1]? = some later
        ∧ later.state.status = record.state.status)
      ∧ ∀ initial,
          TaskArrayState.new (.withCount 1) 0 = .ok initial
          → ∀ done, done <+: [.complete "node-a" (TaskArrayState.successReport 0 1 1),
              .requeueNode "node-a"]
            → (TaskArrayState.run (initial.run [.grant "node-a" (.fromRange 0 0),
                .complete "node-a" (TaskArrayState.successReport 0 1 1)]) done).status
              = .succeeded := by
  obtain ⟨calls, writes⟩ := terminal_status_final (P := samplePlatform) freshIds_succ
  constructor
  · have succeeded : ((run samplePlatform (· + 1) {} finishingWrites).store.arrays[1]?.map
        (·.state.status)) = some .succeeded := by
      decide +kernel
    have retained : ((run samplePlatform (· + 1) (run samplePlatform (· + 1) {} finishingWrites)
        laterWrites).store.arrays[1]?.isSome) = true := by
      decide +kernel
    obtain ⟨record, found, isSucceeded⟩ := Option.map_eq_some_iff.mp succeeded
    obtain ⟨later, present⟩ := Option.isSome_iff_exists.mp retained
    refine ⟨record, later, found, isSucceeded, present, ?_⟩
    exact writes finishingWrites laterWrites 1 record found (by rw [isSucceeded]; rfl)
      (by decide +kernel) later present
  · rintro _ ⟨⟩ done before
    refine ((calls _ _ ⟨.withCount 1, 0, _, _, rfl, rfl⟩ (by decide +kernel)).mpr
      (.inr (by decide)) done before).trans ?_
    decide +kernel

end Machine

end Reliaburger
