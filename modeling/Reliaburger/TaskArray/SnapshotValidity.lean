import Reliaburger.TaskArray.GrantFencing
import Reliaburger.TaskArray.WellFormed

/-! A task array that was only changed by its own calls passes every check of a reopened
snapshot, and no counter of a report overflows, as long as the reported durations stay within
the tasks that ran. Nothing in the calls checks that.
-/

namespace Reliaburger

open IndexRangeSet

namespace TaskArrayState

-- The checks on chunks

theorem validRanges_iff {ranges : IndexRangeSet} {bound : Nat}
    : validRanges ranges bound = true ↔ ∀ index ∈ ranges, index < bound := by
  simp only [validRanges, List.all_eq_true, decide_eq_true_eq]
  constructor
  · rintro below _ ⟨range, stored, _, high⟩
    exact lt_of_le_of_lt high (below range stored)
  · intro below range stored
    exact below range.2 ⟨range, stored, range_ordered stored, le_refl _⟩

/-- Disjoint parts add up to their union, by induction on the parts. -/
private theorem foldlM_addPart {chunks : Nat} (small : chunks < u64Size)
    (parts : List IndexRangeSet) (inside : ∀ part ∈ parts, ∀ chunk ∈ part, chunk < chunks)
    (apart : parts.Pairwise fun left right => ∀ chunk ∈ left, chunk ∉ right)
    (union : IndexRangeSet) (bounded : ∀ chunk ∈ union, chunk < chunks)
    (outside : ∀ part ∈ parts, ∀ chunk ∈ part, chunk ∉ union)
    : ∃ whole, parts.foldlM (addPart chunks) (union, union.len) = .ok (whole, whole.len)
        ∧ ∀ chunk, chunk ∈ whole ↔ chunk ∈ union ∨ ∃ part ∈ parts, chunk ∈ part := by
  induction parts generalizing union with
  | nil => exact ⟨union, rfl, by simp⟩
  | cons part rest ih =>
    obtain ⟨first, others⟩ := List.pairwise_cons.mp apart
    have grown := len_extendFrom (outside part (by simp))
    have bounded' : ∀ chunk ∈ union.extendFrom part, chunk < chunks := by
      intro chunk member
      rcases mem_extendFrom.mp member with old | new
      · exact bounded chunk old
      · exact inside part (by simp) chunk new
    have fits : union.len + part.len < u64Size := by
      rw [← grown, ← card_toFinset]
      refine lt_of_le_of_lt (Finset.card_le_card (t := Finset.range chunks) ?_) (by simpa)
      intro chunk member
      simpa using bounded' chunk (by simpa using member)
    have added : addPart chunks (union, union.len) part
        = .ok (union.extendFrom part, (union.extendFrom part).len) := by
      have valid := validRanges_iff.mpr (inside part (by simp))
      simp [addPart, valid, checkedAdd, fits, grown]
    obtain ⟨whole, sum, members⟩ := ih (fun part member => inside part (by simp [member]))
      others (union.extendFrom part) bounded' (by
        intro other member chunk held extended
        rcases mem_extendFrom.mp extended with old | new
        · exact outside other (by simp [member]) chunk held old
        · exact first other member chunk new held)
    refine ⟨whole, ?_, ?_⟩
    · rw [List.foldlM_cons, added]
      exact sum
    · intro chunk
      simp [members, or_assoc]

variable {state : TaskArrayState} {counts : Vector Nat 16} {held : IndexRangeSet} {node : NodeId}
  {result : ChunkResult}

theorem WellFormed.checkPartition (wellFormed : state.WellFormed)
    : state.checkPartition = .ok () := by
  obtain ⟨_, shows'⟩ := wellFormed.accounted.shown
  have small : state.spec.chunkCount < u64Size :=
    lt_of_le_of_lt wellFormed.accounted.valid.chunkCount_le (by decide)
  obtain ⟨inParts, apart⟩ := shows'.parts
  obtain ⟨whole, sum, members⟩ := foldlM_addPart small state.parts
    (fun part stored chunk member => (inParts chunk).mp ⟨part, stored, member⟩) apart ∅
    (fun chunk member => absurd member (not_mem_empty chunk))
    (fun _ _ chunk _ => not_mem_empty chunk)
  have size : whole.len = state.spec.chunkCount := by
    rw [← card_toFinset, ← Finset.card_range state.spec.chunkCount]
    congr 1
    ext chunk
    simp [members, inParts]
  have start : (∅ : IndexRangeSet).len = 0 := rfl
  rw [start] at sum
  simp [TaskArrayState.checkPartition, sum, size]

theorem WellFormed.checkOwners (wellFormed : state.WellFormed)
    : state.checkOwners = .ok () := by
  have valid : ∀ node ∈ state.grants.keys ++ state.accepted.keys, validNodeId node = true := by
    intro node member
    rcases List.mem_append.mp member with holder | retirer
    · obtain ⟨held, holds⟩ := BTreeMap.mem_iff.mp (Std.ExtTreeMap.mem_keys.mp holder)
      exact (wellFormed.holders node held holds).1
    · obtain ⟨generations, retired⟩ := BTreeMap.mem_iff.mp (Std.ExtTreeMap.mem_keys.mp retirer)
      exact wellFormed.retirers node generations retired
  have none : (state.grants.keys ++ state.accepted.keys).any (fun node => !validNodeId node)
      = false := by
    rw [List.any_eq_false]
    intro node member
    simp [valid node member]
  rw [TaskArrayState.checkOwners, none]
  rfl

theorem WellFormed.checkAttempts (wellFormed : state.WellFormed)
    : state.checkAttempts = .ok () := by
  have none : state.attempts.toList.any (fun entry =>
      decide (entry.1 ≥ state.spec.chunkCount) || decide (entry.2 < 2)
        || state.done.contains entry.1) = false := by
    rw [List.any_eq_false]
    rintro ⟨chunk, attempt⟩ listed
    obtain ⟨_, _, live⟩ :=
      wellFormed.attempts chunk attempt (BTreeMap.mem_toList.mp listed)
    simp [live]
    omega
  rw [TaskArrayState.checkAttempts, none]
  rfl

/-- Separate generations add up, by induction on them. -/
private theorem foldlM_addGeneration {done : IndexRangeSet}
    (generations : List (Nat × IndexRangeSet))
    (retired : ∀ generation ∈ generations,
      generation.1 ≠ 0 ∧ (∃ chunk, chunk ∈ generation.2) ∧ ∀ chunk ∈ generation.2, chunk ∈ done)
    (disjoint : generations.Pairwise fun left right => ∀ chunk ∈ left.2, chunk ∉ right.2)
    (accepted : IndexRangeSet)
    (apart : ∀ generation ∈ generations, ∀ chunk ∈ generation.2, chunk ∉ accepted)
    : ∃ whole, generations.foldlM (addGeneration done) accepted = .ok whole := by
  induction generations generalizing accepted with
  | nil => exact ⟨accepted, rfl⟩
  | cons generation rest ih =>
    obtain ⟨⟨positive, some, inside⟩, retired⟩ := List.forall_mem_cons.mp retired
    obtain ⟨first, others⟩ := List.pairwise_cons.mp disjoint
    have notEmpty := isEmpty_eq_false_iff.mpr some
    have covered : generation.2.ranges.all
        (fun range => done.containsRange range.1 range.2) = true := by
      rw [List.all_eq_true]
      intro range stored
      rw [containsRange_iff]
      exact fun chunk low high => inside chunk ⟨range, stored, low, high⟩
    have added : addGeneration done accepted generation
        = .ok (accepted.extendFrom generation.2) := by
      simp [addGeneration, positive, notEmpty, covered, len_extendFrom (apart generation (by simp))]
    rw [List.foldlM_cons, added]
    refine ih retired others _ ?_
    intro other member chunk held extended
    rcases mem_extendFrom.mp extended with old | new
    · exact apart other (by simp [member]) chunk held old
    · exact first other member chunk new held

theorem WellFormed.checkAccepted (wellFormed : state.WellFormed)
    : state.checkAccepted = .ok () := by
  have kept := wellFormed.accepted
  have retired : ∀ generation ∈ state.acceptedGenerations, generation.1 ≠ 0
      ∧ (∃ chunk, chunk ∈ generation.2) ∧ ∀ chunk ∈ generation.2, chunk ∈ state.done := by
    intro generation listed
    obtain ⟨owner, stored⟩ := mem_acceptedGenerations.mp listed
    have credited := fun chunk (member : chunk ∈ generation.2) =>
      kept.retired ⟨owner, generation.1⟩ chunk (by simp [Credits, stored, member])
    obtain ⟨chunk, member⟩ := kept.stored owner _ _ stored
    exact ⟨(credited chunk member).1, ⟨chunk, member⟩, fun chunk held => (credited chunk held).2⟩
  obtain ⟨_, sum⟩ := foldlM_addGeneration state.acceptedGenerations retired kept.apart ∅
    fun _ _ chunk _ => not_mem_empty chunk
  simp [TaskArrayState.checkAccepted, sum]

-- The checks on counters

/-- The counters never exceed the task count. -/
theorem Accounted.counters_le (accounted : state.Accounted)
    : state.succeeded + state.failed + state.notRun ≤ maxTaskCount := by
  have total := accounted.summary_total
  have count := accounted.valid.count_le
  simp only [summary] at total
  omega

theorem WellFormed.checkCounters (wellFormed : state.WellFormed)
    : state.checkCounters = .ok () := by
  obtain ⟨_, shows'⟩ := wellFormed.accounted.shown
  have counts := wellFormed.accounted.counts
  have small := wellFormed.accounted.counters_le
  have failures := wellFormed.failures
  have counted := failures.counted
  have retired : state.tasksIn state.done = tasksOf state.spec state.done.toFinset :=
    tasksIn_eq wellFormed.accounted.valid fun chunk member =>
      shows'.inside (show state.Placed chunk .closed from member)
  have sum : (checkedAdd state.succeeded state.failed).bind (checkedAdd · state.notRun)
      = some (state.succeeded + state.failed + state.notRun) := by
    have first : state.succeeded + state.failed < u64Size := by
      simp only [u64Size, maxTaskCount] at small ⊢
      omega
    have second : state.succeeded + state.failed + state.notRun < u64Size := by
      simp only [u64Size, maxTaskCount] at small ⊢
      omega
    simp [checkedAdd, first, second]
  have listed : checkedAdd state.failedIndices.len state.failedOverflow = some state.failed := by
    have fits : state.failedIndices.len + state.failedOverflow < u64Size := by
      simp only [u64Size, maxTaskCount] at small ⊢
      omega
    rw [checkedAdd, if_pos fits, counted]
  have inside := validRanges_iff.mpr fun index member => (failures.retired index member).1
  have bounded := failures.bounded
  simp only [TaskArrayState.checkCounters, sum, retired, counts, listed, inside]
  simp [bounded]

theorem WellFormed.checkStopped (wellFormed : state.WellFormed)
    : state.checkStopped = .ok () := by
  cases stopped : state.stopped with
  | none => simp [TaskArrayState.checkStopped, stopped]
  | some reason =>
    have empty : state.queued.isEmpty = true :=
      isEmpty_iff.mpr (wellFormed.closed (stopped ▸ Option.some_ne_none reason))
    simp [TaskArrayState.checkStopped, empty]

theorem WellFormed.checkRetries (wellFormed : state.WellFormed)
    : state.checkRetries = .ok () := by
  have bounded := wellFormed.retries.bounded
  have retired := wellFormed.accounted.len_done_le
  have chunks := wellFormed.accounted.valid.chunkCount_le
  have total : state.retryCauses.total = some state.retried := by
    rw [RetryCauses.total_eq_some]
    refine ⟨wellFormed.retries.causes, ?_⟩
    simp only [maxChunks, u64Size] at chunks ⊢
    omega
  simp [TaskArrayState.checkRetries, total]

-- Durations

/-- Below the counter's limit, wrapping addition is addition; by induction on the lists. -/
private theorem zipWith_mod (left right : List Nat) (small : left.sum + right.sum < u64Size)
    : List.zipWith (fun count more => (count + more) % u64Size) left right
      = List.zipWith (· + ·) left right := by
  induction left generalizing right with
  | nil => rfl
  | cons head rest ih =>
    cases right with
    | nil => rfl
    | cons head' rest' =>
      simp only [List.sum_cons] at small
      simp only [List.zipWith_cons_cons]
      rw [ih rest' (by omega), Nat.mod_eq_of_lt (by omega)]

private theorem sum_zipWith_add (left right : List Nat) (same : left.length = right.length)
    : (List.zipWith (· + ·) left right).sum = left.sum + right.sum := by
  induction left generalizing right with
  | nil =>
    cases right with
    | nil => rfl
    | cons => cases same
  | cons head rest ih =>
    cases right with
    | nil => cases same
    | cons head' rest' =>
      simp only [List.length_cons, Nat.succ.injEq] at same
      simp only [List.zipWith_cons_cons, List.sum_cons, ih rest' same]
      omega

theorem wrappingAdd_eq {added : Vector Nat 16} (small : counts.sum + added.sum < u64Size)
    : wrappingAdd counts added = Vector.zipWith (· + ·) counts added := by
  apply Vector.toList_inj.mp
  rw [wrappingAdd, Vector.toList_zipWith, Vector.toList_zipWith]
  exact zipWith_mod _ _ (by simpa using small)

theorem sum_zipWith {added : Vector Nat 16}
    : (Vector.zipWith (· + ·) counts added).sum = counts.sum + added.sum := by
  rw [← Vector.sum_toList, Vector.toList_zipWith, sum_zipWith_add _ _ (by simp),
    Vector.sum_toList, Vector.sum_toList]

theorem getElem_le_sum (counts : Vector Nat 16) (bucket : Fin 16)
    : counts[bucket] ≤ counts.sum := by
  rw [← Vector.sum_toList]
  exact List.single_le_sum (fun _ _ => Nat.zero_le _) _ (by simp)

/-- Halving only lowers a bucket, by induction on the rounds. -/
theorem decayRecent_le (rounds : Nat) (counts : Vector Nat 16) (bucket : Fin 16)
    : (decayRecent rounds counts)[bucket] ≤ counts[bucket] := by
  induction rounds generalizing counts with
  | zero => exact le_refl _
  | succ rounds ih =>
    unfold decayRecent
    split
    · refine (ih _).trans ?_
      simp only [Fin.getElem_fin, Vector.getElem_map]
      exact Nat.div_le_self _ _
    · exact le_refl _

/-- No bucket of the recent histogram is above its bucket of the whole one, which counts no
more samples than tasks ran.
-/
structure DurationsFit (state : TaskArrayState) : Prop where
  executed : state.durationCounts.sum ≤ state.succeeded + state.failed
  recent : ∀ bucket : Fin 16, state.recentDurationCounts[bucket] ≤ state.durationCounts[bucket]

theorem sum_le_sum {other : Vector Nat 16}
    (below : ∀ bucket : Fin 16, counts[bucket] ≤ other[bucket])
    : counts.sum ≤ other.sum := by
  rw [← Vector.sum_toList, ← Vector.sum_toList]
  apply List.Forall₂.sum_le_sum
  rw [List.forall₂_iff_get]
  refine ⟨by simp, ?_⟩
  intro index low high
  simpa using below ⟨index, by simpa using low⟩

/-- The checked sum of a histogram is its sum when that fits the counter. -/
private theorem foldlM_checkedAdd (counts : List Nat) (start : Nat)
    (small : start + counts.sum < u64Size)
    : counts.foldlM checkedAdd start = some (start + counts.sum) := by
  induction counts generalizing start with
  | nil => rfl
  | cons count rest ih =>
    simp only [List.sum_cons] at small
    have added : checkedAdd start count = some (start + count) := by
      rw [checkedAdd, if_pos (by omega)]
    rw [List.foldlM_cons, added, Option.bind_eq_bind, Option.bind_some, ih _ (by omega),
      List.sum_cons, Nat.add_assoc]

theorem WellFormed.checkDurations (wellFormed : state.WellFormed) (fit : state.DurationsFit)
    : state.checkDurations = .ok () := by
  have executed := fit.executed
  have small := wellFormed.accounted.counters_le
  have sum : state.durationCounts.toList.foldlM checkedAdd 0 = some state.durationCounts.sum := by
    rw [foldlM_checkedAdd, Nat.zero_add, Vector.sum_toList]
    rw [Vector.sum_toList]
    simp only [u64Size, maxTaskCount] at small ⊢
    omega
  have recent : (state.recentDurationCounts.toList.zip state.durationCounts.toList).any
      (fun counts => decide (counts.1 > counts.2)) = false := by
    rw [List.any_eq_false]
    intro counts member
    obtain ⟨index, inside, found⟩ := List.getElem_of_mem member
    have below := fit.recent ⟨index, by simpa using inside⟩
    simp only [List.getElem_zip, Vector.getElem_toList] at found
    subst found
    simpa using below
  simp only [TaskArrayState.checkDurations, sum, recent]
  simp [executed]

/-- A well-formed array whose durations fit passes every check of a reopened snapshot. -/
theorem WellFormed.validateSnapshot (wellFormed : state.WellFormed) (fit : state.DurationsFit)
    : state.validateSnapshot = .ok () := by
  simp only [TaskArrayState.validateSnapshot, wellFormed.validated, wellFormed.checkPartition,
    wellFormed.checkOwners, wellFormed.checkAttempts, wellFormed.checkAccepted,
    wellFormed.checkCounters, wellFormed.checkDurations fit, wellFormed.checkStopped,
    wellFormed.checkRetries]
  rfl

-- Reports along a run

/-- Every addition a counted report makes stays within a 64-bit counter. -/
structure AddsInRange (state : TaskArrayState) (result : ChunkResult) : Prop where
  durations : ∀ bucket : Fin 16,
      state.durationCounts[bucket] + result.durationCounts[bucket] < u64Size
  recent : ∀ bucket : Fin 16,
      state.recentDurationCounts[bucket] + result.durationCounts[bucket] < u64Size
  recentSum
    : (Vector.zipWith (· + ·) state.recentDurationCounts result.durationCounts).sum < u64Size
  succeeded : state.succeeded + result.succeeded < u64Size
  failed : state.failed + result.failedCount < u64Size
  notRun : state.notRun + result.notRun + state.tasksIn state.queued < u64Size
  retried : state.retried + result.retried < u64Size
  failedOverflow : state.failedOverflow + result.failedCount < u64Size

/-- The state before and after every call passes the snapshot's checks, and no counted report
overflows a counter.
-/
def SafeRun (initial : TaskArrayState) (ops : List ArrayOp) : Prop :=
  ∀ time,
    (initial.stateAt ops time).validateSnapshot = .ok ()
    ∧ ∀ node result next,
        ops[time]? = some (.complete node result)
        → (initial.stateAt ops time).complete node result = .ok (.applied, next)
        → (initial.stateAt ops time).AddsInRange result

/-- A report by the chunk's holder, at the attempt it holds it at, has no more durations than tasks
that it says ran.
-/
def DurationsWithin (state : TaskArrayState) (node : NodeId) (result : ChunkResult) : Prop :=
  (∃ held, state.grants[node]? = some held ∧ result.chunk ∈ held)
  → result.attempt = state.attemptOf result.chunk
  → result.durationCounts.sum ≤ result.succeeded + result.failedCount

/-- The counters after an accepted report still fit the task count. -/
private theorem executed_le (accounted : state.Accounted) (accepts : state.Accepts node result held)
    : state.succeeded + result.succeeded + (state.failed + result.failedCount)
        + (state.notRun + result.notRun)
      ≤ maxTaskCount :=
  ((Move.tally accepts).accounted accounted).counters_le

section

variable (wellFormed : state.WellFormed) (fit : state.DurationsFit)
  (accepts : state.Accepts node result held) (within : state.DurationsWithin node result)
include wellFormed fit accepts within

theorem addsInRange_of_within
    : state.AddsInRange result := by
  have samples := within ⟨held, accepts.holds, accepts.member⟩ accepts.attempt
  have executed := executed_le wellFormed.accounted accepts
  have sampled := fit.executed
  have recent := sum_le_sum fit.recent
  have total := wellFormed.accounted.summary_total
  have count := wellFormed.accounted.valid.count_le
  have chunks := wellFormed.accounted.valid.chunkCount_le
  have retired := wellFormed.accounted.len_done_le
  have retries := wellFormed.retries.bounded
  have report := result.retried_lt
  have notRun := result.notRun_lt
  have counted := wellFormed.failures.counted
  simp only [summary] at total
  simp only [maxTaskCount, maxChunks] at executed count chunks
  refine ⟨?_, ?_, ?_, ?_, ?_, ?_, ?_, ?_⟩
  · intro bucket
    have := getElem_le_sum state.durationCounts bucket
    have := getElem_le_sum result.durationCounts bucket
    simp only [u64Size]
    omega
  · intro bucket
    have := getElem_le_sum state.recentDurationCounts bucket
    have := getElem_le_sum result.durationCounts bucket
    simp only [u64Size]
    omega
  · rw [sum_zipWith, u64Size]
    omega
  all_goals
    simp only [u64Size]
    omega

/-- An accepted report within its durations keeps the histograms in step with the tasks. -/
private theorem durationsFit_tally
    : (state.tally node result).DurationsFit := by
  have samples := within ⟨held, accepts.holds, accepts.member⟩ accepts.attempt
  have executed := executed_le wellFormed.accounted accepts
  have sampled := fit.executed
  have recent := sum_le_sum fit.recent
  simp only [maxTaskCount] at executed
  have whole : wrappingAdd state.durationCounts result.durationCounts
      = Vector.zipWith (· + ·) state.durationCounts result.durationCounts :=
    wrappingAdd_eq (by simp only [u64Size]; omega)
  have recently : wrappingAdd state.recentDurationCounts result.durationCounts
      = Vector.zipWith (· + ·) state.recentDurationCounts result.durationCounts :=
    wrappingAdd_eq (by simp only [u64Size]; omega)
  refine ⟨?_, ?_⟩
  · change (wrappingAdd state.durationCounts result.durationCounts).sum
      ≤ state.succeeded + result.succeeded + (state.failed + result.failedCount)
    rw [whole, sum_zipWith]
    omega
  · intro bucket
    change (decayRecent 64 (wrappingAdd state.recentDurationCounts result.durationCounts))[bucket]
      ≤ (wrappingAdd state.durationCounts result.durationCounts)[bucket]
    refine (decayRecent_le 64 _ bucket).trans ?_
    have := fit.recent bucket
    rw [whole, recently]
    simp only [Fin.getElem_fin, Vector.getElem_zipWith] at this ⊢
    omega

end

/-- Only counted reports touch the histograms. -/
theorem durationsFit_step (wellFormed : state.WellFormed) (fit : state.DurationsFit) (op : ArrayOp)
    (within : ∀ node result, op = .complete node result → state.DurationsWithin node result)
    : (state.step op).DurationsFit := by
  have copy {from' next : TaskArrayState} (fit : from'.DurationsFit)
      (same : next.books = from'.books) : next.DurationsFit := by
    simp only [books, reported, Prod.mk.injEq] at same
    obtain ⟨⟨succeeded, failed, _⟩, _, durations, recent⟩ := same
    refine ⟨?_, ?_⟩
    · rw [durations, succeeded, failed]
      exact fit.executed
    · rw [durations, recent]
      exact fit.recent
  rcases books_step state op with ⟨_, same⟩ | ⟨node, result, _, _, rfl, _, accepts, same⟩
  · exact copy fit same
  · exact copy (durationsFit_tally wellFormed fit accepts (within node result rfl)) same

theorem durationsFit_new {spec : TaskArraySpec} {submitted : Nat}
    (created : new spec submitted = .ok state)
    : state.DurationsFit := by
  unfold new at created
  split at created
  · cases created
  cases created
  have none : (Vector.replicate 16 0).sum ≤ 0 := by decide
  exact ⟨none, fun _ => le_refl _⟩

/-- In every run of calls whose counted reports have no more durations than tasks, every state
reached passes the snapshot's checks and no counted report overflows a counter; by induction on
time.
-/
theorem safeRun_of_durationsWithin {spec : TaskArraySpec} {submitted : Nat}
    {initial : TaskArrayState} (created : new spec submitted = .ok initial)
    (ops : List ArrayOp)
    (within : ∀ time node result,
        ops[time]? = some (.complete node result)
        → (initial.stateAt ops time).DurationsWithin node result)
    : initial.SafeRun ops := by
  have wellFormed (time : Nat) : (initial.stateAt ops time).WellFormed :=
    (reachable_run created (ops.take time)).wellFormed
  have fit (time : Nat) : (initial.stateAt ops time).DurationsFit := by
    induction time with
    | zero => exact durationsFit_new created
    | succ time ih =>
      rw [stateAt_succ]
      rcases Option.eq_none_or_eq_some ops[time]? with called | ⟨op, called⟩
      · simpa [called] using ih
      simp only [called, Option.elim_some]
      refine durationsFit_step (wellFormed time) ih op ?_
      rintro node result rfl
      exact within time node result called
  intro time
  refine ⟨(wellFormed time).validateSnapshot (fit time), ?_⟩
  intro node result next called completed
  rcases complete_ok completed with ⟨repeated, _⟩ | ⟨_, ⟨_, accepts⟩, _⟩
  · cases repeated
  · exact addsInRange_of_within (wellFormed time) (fit time) accepts
      (within time node result called)

/-- A report of one task that claims two durations. -/
def twiceTimed : ChunkResult :=
  { successReport 0 1 1 with
    durationCounts := #v[2, 0, 0, 0, 0, 0, 0, 0, 0, 0, 0, 0, 0, 0, 0, 0]
    durationCounts_lt := by decide }

/-- The report is counted, and the snapshot of the array is then refused. -/
theorem twiceTimed_is_not_safe
    : ¬ ∀ spec submitted initial (ops : List ArrayOp),
        new spec submitted = .ok initial → initial.SafeRun ops := by
  intro safe
  have created : new (.withCount 1) 0 = .ok _ := rfl
  have checked := (safe _ _ _
    [.grant "node-a" (.fromRange 0 0), .complete "node-a" twiceTimed] created 2).1
  have refused : ∀ initial, new (.withCount 1) 0 = .ok initial
      → (initial.stateAt
            [.grant "node-a" (.fromRange 0 0), .complete "node-a" twiceTimed] 2).validateSnapshot
          = .error "duration counts exceed executed tasks" := by
    rintro _ ⟨⟩
    decide +kernel
  rw [refused _ created] at checked
  cases checked

/-- Five tasks in chunks of two; the node that holds the first two chunks reports both, with one
task that failed and a duration for every task that ran. -/
def timedReports : List ArrayOp :=
  [.grant "node-a" (.fromRange 0 1),
    .complete "node-a"
      { successReport 0 1 2 with
        durationCounts := #v[1, 1, 0, 0, 0, 0, 0, 0, 0, 0, 0, 0, 0, 0, 0, 0]
        durationCounts_lt := by decide },
    .complete "node-a"
      { successReport 1 1 1 with
        durationCounts := #v[0, 0, 2, 0, 0, 0, 0, 0, 0, 0, 0, 0, 0, 0, 0, 0]
        failedCount := 1
        failedIndices := .fromRange 3 3
        durationCounts_lt := by decide
        failedCount_lt := by decide }]

/-- Both reports are counted, and the array's snapshot stays readable. -/
theorem safeRun_timedReports
    : ∃ initial,
        new { TaskArraySpec.withCount 5 with chunkSize := 2 } 0 = .ok initial
        ∧ (initial.stateAt timedReports 3).durationCounts.sum = 4
        ∧ initial.SafeRun timedReports := by
  have created : new { TaskArraySpec.withCount 5 with chunkSize := 2 } 0 = .ok _ := rfl
  refine ⟨_, created, by decide +kernel, safeRun_of_durationsWithin created _ ?_⟩
  intro time node result called _ _
  match time with
  | 0 => simp [timedReports] at called
  | 1 | 2 =>
    simp only [timedReports, List.getElem?_cons_succ, List.getElem?_cons_zero, Option.some.injEq,
      ArrayOp.complete.injEq] at called
    obtain ⟨rfl, rfl⟩ := called
    decide
  | time + 3 => simp [timedReports] at called

end TaskArrayState

end Reliaburger
