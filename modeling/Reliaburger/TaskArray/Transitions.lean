import Reliaburger.TaskArray.State

/-! What each call on a task array can do. A call that is not refused is one of five moves,
perhaps followed by a stop; every invariant is proved once per move. A terminal array holds no chunk
in its queue or in a grant, so only a stop can change it, if it finished without one.
-/

namespace Reliaburger

open IndexRangeSet

namespace IndexRangeSet

/-- Removing a list of ranges removes exactly what they cover, by induction on the list. -/
private theorem mem_foldl_removeRange (ranges : List (Nat × Nat)) (set : IndexRangeSet)
    (index : Nat)
    : index ∈ ranges.foldl (fun result range => result.removeRange range.1 range.2) set
      ↔ index ∈ set ∧ ¬ RangeList.Covers ranges index := by
  induction ranges generalizing set with
  | nil => simp
  | cons head rest ih =>
    simp only [List.foldl_cons, ih, mem_removeRange, RangeList.covers_cons, not_or, and_assoc]

@[simp] theorem mem_removeRanges {set chunks : IndexRangeSet} {index : Nat}
    : index ∈ chunks.ranges.foldl (fun queued range => queued.removeRange range.1 range.2) set
      ↔ index ∈ set ∧ index ∉ chunks :=
  mem_foldl_removeRange chunks.ranges set index

end IndexRangeSet

namespace TaskArrayState

/-- The report is for a chunk the node holds, at the attempt it holds it at, and accounts for
each of its tasks.
-/
structure Accepts (state : TaskArrayState) (node : NodeId) (result : ChunkResult)
    (held : IndexRangeSet) : Prop where
  holds : state.grants[node]? = some held
  member : result.chunk ∈ held
  inside : result.chunk < state.spec.chunkCount
  unfinished : result.chunk ∉ state.done
  attempt : result.attempt = state.attemptOf result.chunk
  counts
    : result.succeeded + result.failedCount + result.notRun
      = state.spec.tasksInChunk result.chunk
  previewed : result.failedIndices.len ≤ result.failedCount
  indices
    : ∃ first last,
        state.spec.chunkRange result.chunk = some (first, last)
        ∧ ∀ range ∈ result.failedIndices.ranges, first ≤ range.1 ∧ range.2 ≤ last
  causes : result.retryCauses.total = some result.retried

/-- A move of chunks between the queue, the grants and the retired ones. -/
inductive Move : TaskArrayState → TaskArrayState → Prop where
  | handOut {state : TaskArrayState} {node : NodeId} {chunks : IndexRangeSet}
      (owner : validNodeId node = true) (running : state.stopped = none)
      (queued : ∀ chunk ∈ chunks, chunk ∈ state.queued) (some : ∃ chunk, chunk ∈ chunks)
      : Move state (state.handOut node chunks)
  | tally {state : TaskArrayState} {node : NodeId} {result : ChunkResult}
      {held : IndexRangeSet} (accepts : state.Accepts node result held)
      : Move state (state.tally node result)
  | stop {state : TaskArrayState} (reason : StopReason) (running : state.stopped = none)
      : Move state (state.stop reason)
  | writeOff {state : TaskArrayState} {node : NodeId} {chunks : IndexRangeSet}
      (holds : state.grants[node]? = some chunks) (stopped : state.stopped ≠ none)
      : Move state (state.writeOff node chunks)
  | returnToQueue {state : TaskArrayState} {node : NodeId} {chunks : IndexRangeSet}
      (holds : state.grants[node]? = some chunks) (running : state.stopped = none)
      : Move state (state.returnToQueue node chunks)

-- The calls

/-- An accepted grant names queued chunks of a running array. -/
theorem grant_ok {state next : TaskArrayState} {node : NodeId} {chunks : IndexRangeSet}
    (granted : state.grant node chunks = .ok next)
    : validNodeId node = true
      ∧ state.stopped = none
      ∧ (∀ chunk ∈ chunks, chunk ∈ state.queued)
      ∧ ((∀ chunk, chunk ∉ chunks) ∧ next = state
        ∨ (∃ chunk, chunk ∈ chunks) ∧ next = state.handOut node chunks) := by
  unfold grant at granted
  split at granted
  · cases granted
  rename_i owner
  split at granted
  · cases granted
  rename_i running
  split at granted
  · cases granted
  rename_i covered
  have queued : ∀ chunk ∈ chunks, chunk ∈ state.queued := by
    rintro chunk ⟨range, stored, low, high⟩
    have inside := List.find?_eq_none.mp covered range stored
    simp only [Bool.not_eq_true, Bool.not_eq_false', containsRange_iff] at inside
    exact inside chunk low high
  refine ⟨by simpa using owner, by simpa using running, queued, ?_⟩
  cases empty : chunks.isEmpty with
  | true =>
    rw [empty] at granted
    exact Or.inl ⟨isEmpty_iff.mp empty, by cases granted; rfl⟩
  | false =>
    rw [empty] at granted
    exact Or.inr ⟨isEmpty_eq_false_iff.mp empty, by cases granted; rfl⟩

/-- A report is a repeat, or it is accepted and every check on it passed. -/
theorem complete_ok {state next : TaskArrayState} {node : NodeId} {result : ChunkResult}
    {outcome : CompletionOutcome} (completed : state.complete node result = .ok (outcome, next))
    : (outcome = .duplicate ∧ next = state)
      ∨ (outcome = .applied
        ∧ (∃ held, state.Accepts node result held)
        ∧ next = state.accept node result) := by
  unfold complete at completed
  simp only at completed
  split at completed
  · cases completed
  rename_i range found
  split at completed
  · cases completed
    exact Or.inl ⟨rfl, rfl⟩
  rename_i unfinished
  split at completed
  · cases completed
  rename_i holding
  split at completed
  · cases completed
  rename_i attempt
  split at completed
  · cases completed
  split at completed
  · cases completed
  split at completed
  · cases completed
  rename_i outside
  split at completed
  · cases completed
  rename_i causes
  cases completed
  refine Or.inr ⟨rfl, ?_, rfl⟩
  simp only [Bool.not_eq_true', Bool.not_eq_false, Option.any_eq_true, contains_iff] at holding
  obtain ⟨held, holds, member⟩ := holding
  have inside : result.chunk < state.spec.chunkCount := by
    by_contra outside
    simp [TaskArraySpec.chunkRange, Nat.le_of_not_lt outside] at found
  refine ⟨held, holds, member, inside, ?_, by simpa using attempt, ?_, ?_,
    ⟨range.1, range.2, found, ?_⟩, ?_⟩
  · simpa using unfinished
  · simp only [TaskArraySpec.tasksInChunk, found]
    omega
  · omega
  · intro failed stored
    have allInside : ∀ first last, (first, last) ∈ result.failedIndices.ranges
        → range.1 ≤ first ∧ last ≤ range.2 := by
      simpa using outside
    exact allInside failed.1 failed.2 stored
  · have small := result.retried_lt
    have sum : result.retryCauses.total.getD (u64Size - 1) = result.retried := by
      simpa using causes
    cases total : result.retryCauses.total with
    | none =>
      simp only [total, Option.getD_none, u64Size] at sum
      omega
    | some value =>
      simp only [total, Option.getD_some] at sum
      rw [sum]

variable (state : TaskArrayState)

/-- The failure limit either lets the array run on or stops it. -/
theorem stopWhenFailed_cases
    : state.stopWhenFailed = state ∨ state.stopWhenFailed = state.stop .tooManyFailures := by
  unfold stopWhenFailed
  split
  · split
    · exact Or.inr rfl
    · exact Or.inl rfl
  · exact Or.inl rfl

theorem stop_of_stopped {state : TaskArrayState} (reason : StopReason)
    (stopped : state.stopped ≠ none)
    : state.stop reason = state := by
  have isStopped : state.stopped.isSome = true := Option.isSome_iff_ne_none.mpr stopped
  simp [stop, isStopped]

theorem stopped_stop (reason : StopReason) : (state.stop reason).stopped.isSome = true := by
  by_cases running : state.stopped = none
  · simp [stop, running]
  · rw [stop_of_stopped reason running]
    exact Option.isSome_iff_ne_none.mpr running

theorem stop_moves (reason : StopReason)
    : Relation.ReflTransGen Move state (state.stop reason) := by
  by_cases running : state.stopped = none
  · exact .single (.stop reason running)
  · rw [stop_of_stopped reason running]

/-- A grant is refused, names no chunk, or hands queued chunks out. -/
theorem step_grant (node : NodeId) (chunks : IndexRangeSet)
    : state.step (.grant node chunks) = state
      ∨ validNodeId node = true
        ∧ state.stopped = none
        ∧ (∀ chunk ∈ chunks, chunk ∈ state.queued)
        ∧ (∃ chunk, chunk ∈ chunks)
        ∧ state.step (.grant node chunks) = state.handOut node chunks := by
  simp only [step]
  split
  · rename_i next granted
    obtain ⟨owner, running, queued, ⟨_, rfl⟩ | ⟨some, rfl⟩⟩ := grant_ok granted
    · exact .inl rfl
    · exact .inr ⟨owner, running, queued, some, rfl⟩
  · exact .inl rfl

/-- A report changes nothing, or it is counted and may stop the array. -/
theorem step_complete (node : NodeId) (result : ChunkResult)
    : state.step (.complete node result) = state
      ∨ ∃ held, state.Accepts node result held
        ∧ (state.step (.complete node result) = state.tally node result
          ∨ state.step (.complete node result)
            = (state.tally node result).stop .tooManyFailures) := by
  simp only [step]
  split
  · rename_i outcome next completed
    rcases complete_ok completed with ⟨_, rfl⟩ | ⟨_, ⟨held, accepts⟩, rfl⟩
    · exact .inl rfl
    · exact .inr ⟨held, accepts, stopWhenFailed_cases _⟩
  · exact .inl rfl

/-- Every call is a sequence of moves, by cases on the call. -/
theorem step_moves (op : ArrayOp) : Relation.ReflTransGen Move state (state.step op) := by
  cases op with
  | grant node chunks =>
    rcases step_grant state node chunks with same | ⟨owner, running, queued, some, same⟩
    · rw [same]
    · rw [same]
      exact .single (.handOut owner running queued some)
  | complete node result =>
    rcases step_complete state node result with same | ⟨_, accepts, same | stops⟩
    · rw [same]
    · rw [same]
      exact .single (.tally accepts)
    · rw [stops]
      exact .head (.tally accepts) (stop_moves _ _)
  | requeueNode node =>
    simp only [step, requeueNode]
    split
    · exact .refl
    rename_i holds
    simp only
    split
    · rename_i stopped
      exact .single (.writeOff holds (Option.isSome_iff_ne_none.mp stopped))
    · rename_i running
      exact .single (.returnToQueue holds (by simpa using running))
  | cancel => exact stop_moves _ _
  | refuseUnrunnable => exact stop_moves _ _

/-- What holds of a new array and survives every move holds of every reachable state. -/
theorem Reachable.induction {P : TaskArrayState → Prop} {state : TaskArrayState}
    (reachable : state.Reachable)
    (initial : ∀ spec submitted state, new spec submitted = .ok state → P state)
    (move : ∀ state next, P state → Move state next → P next)
    : P state := by
  obtain ⟨spec, submitted, start, ops, created, rfl⟩ := reachable
  have holds := initial spec submitted start created
  clear created
  induction ops generalizing start with
  | nil => exact holds
  | cons op rest ih =>
    apply ih
    exact Relation.ReflTransGen.head_induction_on (step_moves start op)
      (motive := fun state _ => P state → P (start.step op)) id
      (fun moved _ later now => later (move _ _ now moved)) holds

end TaskArrayState

-- Arrays that have finished

open TaskArrayStatus

def ArrayOp.isStop : ArrayOp → Bool
  | .cancel | .refuseUnrunnable => true
  | _ => false

namespace TaskArrayState

/-- The array did not finish by running out of work: stopping it rewrites no outcome. -/
def Stoppable (state : TaskArrayState) : Prop :=
  state.status ≠ .succeeded ∧ state.status ≠ .completedWithFailures

instance (state : TaskArrayState) : Decidable state.Stoppable :=
  inferInstanceAs (Decidable (_ ∧ _))

variable {state : TaskArrayState}

theorem status_isTerminal_iff
    : state.status.isTerminal = true
      ↔ state.queued.isEmpty = true ∧ state.grants.isEmpty = true := by
  unfold status
  cases drained : (state.queued.isEmpty && state.grants.isEmpty) with
  | true =>
    have both : state.queued.isEmpty = true ∧ state.grants.isEmpty = true := by
      simpa using drained
    cases state.stopped with
    | none => simp only [both, and_self, iff_true]; split <;> rfl
    | some reason => cases reason <;> simp [isTerminal, both]
  | false =>
    have neither : ¬ (state.queued.isEmpty = true ∧ state.grants.isEmpty = true) := by
      simpa using drained
    refine iff_of_false ?_ neither
    cases state.stopped with
    | none => simp [isTerminal]
    | some reason => cases reason <;> simp [isTerminal]

/-- An array that was stopped shows it in its status. -/
theorem stoppable_of_stopped (stopped : state.stopped ≠ none)
    : state.Stoppable := by
  unfold Stoppable status
  cases reason : state.stopped with
  | none => exact absurd reason stopped
  | some why =>
    cases (state.queued.isEmpty && state.grants.isEmpty) <;> cases why <;> simp

theorem stopped_of_stoppable (terminal : state.status.isTerminal = true)
    (stoppable : state.Stoppable)
    : state.stopped ≠ none := by
  intro running
  have drained := status_isTerminal_iff.mp terminal
  unfold Stoppable status at stoppable
  simp only [running, drained.1, drained.2, Bool.and_self] at stoppable
  split at stoppable <;> simp at stoppable

/-- No chunk of a terminal array is queued or held. -/
theorem drained (terminal : state.status.isTerminal = true)
    : (∀ chunk, chunk ∉ state.queued) ∧ ∀ node : NodeId, state.grants[node]? = none := by
  obtain ⟨noQueue, noGrants⟩ := status_isTerminal_iff.mp terminal
  refine ⟨IndexRangeSet.isEmpty_iff.mp noQueue, fun node => ?_⟩
  have empty := Std.ExtTreeMap.isEmpty_iff.mp noGrants
  simp [empty]

/-- A call on a terminal array changes nothing, except a stop of one that finished without
one; by cases on the call. -/
theorem step_of_terminal {state : TaskArrayState} (terminal : state.status.isTerminal = true)
    {op : ArrayOp} (spared : op.isStop = true → state.Stoppable)
    : state.step op = state := by
  obtain ⟨noQueue, noGrants⟩ := drained terminal
  cases op with
  | grant node chunks =>
    rcases step_grant state node chunks with same | ⟨_, _, queued, ⟨chunk, member⟩, _⟩
    · exact same
    · exact absurd (queued chunk member) (noQueue chunk)
  | complete node result =>
    rcases step_complete state node result with same | ⟨_, accepts, _⟩
    · exact same
    have holds := accepts.holds
    rw [noGrants node] at holds
    cases holds
  | requeueNode node => simp only [step, requeueNode, noGrants node]
  | cancel | refuseUnrunnable =>
    exact stop_of_stopped _ (stopped_of_stoppable terminal (spared rfl))

section

variable (terminal : state.status.isTerminal = true)
include terminal

/-- Stopping a terminal array leaves it terminal, whatever status it had. -/
theorem stop_terminal (reason : StopReason)
    : (state.stop reason).status.isTerminal = true := by
  by_cases running : state.stopped = none
  · obtain ⟨_, noGrants⟩ := status_isTerminal_iff.mp terminal
    rw [status_isTerminal_iff]
    simp only [stop, running, Option.isSome_none, Bool.false_eq_true, if_false]
    exact ⟨IndexRangeSet.isEmpty_iff.mpr (by simp), noGrants⟩
  · rwa [stop_of_stopped reason running]

/-- A terminal array stays terminal. -/
theorem step_terminal (op : ArrayOp)
    : (state.step op).status.isTerminal = true := by
  cases op with
  | cancel => exact stop_terminal terminal _
  | refuseUnrunnable => exact stop_terminal terminal _
  | _ => rwa [step_of_terminal terminal (by simp [ArrayOp.isStop])]

theorem run_terminal (ops : List ArrayOp)
    : (state.run ops).status.isTerminal = true := by
  induction ops generalizing state with
  | nil => exact terminal
  | cons op rest ih => exact ih (step_terminal terminal op)

/-- Calls that stop nothing leave a terminal array as it is. -/
theorem run_of_terminal {ops : List ArrayOp}
    (spared : ∀ op ∈ ops, op.isStop = false)
    : state.run ops = state := by
  induction ops with
  | nil => rfl
  | cons op rest ih =>
    have first : state.step op = state :=
      step_of_terminal terminal (by simp [spared op List.mem_cons_self])
    simp only [run, List.foldl_cons, first]
    exact ih (List.forall_mem_cons.mp spared).2

end

end TaskArrayState

end Reliaburger
