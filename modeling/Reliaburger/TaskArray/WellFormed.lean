import Reliaburger.TaskArray.Accounting

/-! Invariants of a task array beyond the places of its chunks: who may hold and retire them,
the attempts in use, the accepted record, the failed indices and the retry counts. Each is
proved once per move.
-/

namespace Reliaburger

open BTreeMap IndexRangeSet RangeList

-- The accepted record

namespace TaskArrayState

variable {node : NodeId} {state next : TaskArrayState} {chunk attempt : Nat}
  {grant : AcceptedGrant}

/-- One owner's part of the accepted record; the folded part has no owner. -/
def recordOf (state : TaskArrayState) : Option NodeId → BTreeMap Nat IndexRangeSet
  | some node => state.accepted[node]?.getD ∅
  | none => state.acceptedFolded

/-- The record names the grant for the chunk. -/
def Credits (state : TaskArrayState) (grant : AcceptedGrant) (chunk : Nat) : Prop :=
  chunk ∈ (state.recordOf grant.owner)[grant.attempt]?.getD ∅

private theorem mem_generation {record : BTreeMap Nat IndexRangeSet}
    : chunk ∈ record[attempt]?.getD ∅ ↔ ∃ set, record[attempt]? = some set ∧ chunk ∈ set := by
  cases record[attempt]? with
  | none => simp
  | some set => simp

theorem mem_acceptedGenerations {entry : Nat × IndexRangeSet}
    : entry ∈ state.acceptedGenerations
      ↔ ∃ owner, (state.recordOf owner)[entry.1]? = some entry.2 := by
  simp only [acceptedGenerations, List.mem_append, List.mem_flatMap, Option.exists, recordOf,
    Prod.exists, ← mem_toList]
  rw [or_comm]
  refine or_congr Iff.rfl (exists_congr fun node => ?_)
  simp only [mem_toList]
  cases state.accepted[node]? with
  | none => simp
  | some generations => simpa using mem_toList

theorem credits_recordAccepted {other : Nat}
    : (state.recordAccepted node attempt chunk).Credits grant other
      ↔ state.Credits grant other ∨ grant = ⟨some node, attempt⟩ ∧ other = chunk := by
  obtain ⟨_ | owner, generation⟩ := grant
  · simp [Credits, recordOf, recordAccepted]
  simp only [Credits, recordOf, recordAccepted, get_insert, AcceptedGrant.mk.injEq,
    Option.some.injEq]
  by_cases same : node = owner
  · subst same
    by_cases now : attempt = generation
    · subst now
      simp
    · simp [get_insert, now, Ne.symm now]
  · simp [same, Ne.symm same]

/-- Folding generations one by one adds their chunks, by induction on the generations. -/
private theorem mem_foldl_foldGeneration (generations : List (Nat × IndexRangeSet))
    (folded : BTreeMap Nat IndexRangeSet)
    : chunk ∈ (generations.foldl foldGeneration folded)[attempt]?.getD ∅
      ↔ chunk ∈ folded[attempt]?.getD ∅
        ∨ ∃ set : IndexRangeSet, (attempt, set) ∈ generations ∧ chunk ∈ set := by
  induction generations generalizing folded with
  | nil => simp
  | cons entry rest ih =>
    obtain ⟨first, _⟩ := entry
    rw [List.foldl_cons, ih, foldGeneration, get_insert]
    by_cases now : first = attempt
    · subst now
      simp [or_assoc, or_and_right, exists_or]
    · simp [now, Ne.symm now]

private theorem some_foldl_foldGeneration {generations : List (Nat × IndexRangeSet)}
    {folded : BTreeMap Nat IndexRangeSet} {set : IndexRangeSet}
    (before : ∀ (attempt : Nat) set, folded[attempt]? = some set → ∃ chunk, chunk ∈ set)
    (added : ∀ entry ∈ generations, ∃ chunk, chunk ∈ entry.2)
    (stored : (generations.foldl foldGeneration folded)[attempt]? = some set)
    : ∃ chunk, chunk ∈ set := by
  induction generations generalizing folded with
  | nil => exact before attempt set stored
  | cons entry rest ih =>
    obtain ⟨⟨chunk, member⟩, others⟩ := List.forall_mem_cons.mp added
    refine ih ?_ others stored
    intro attempt set found
    rcases get_insert_cases found with ⟨_, rfl⟩ | found
    · exact ⟨chunk, by simp [member]⟩
    · exact before attempt set found

/-- A full record credits the same attempts as before, to no owner. -/
theorem credits_foldAcceptedWhenFull
    : state.foldAcceptedWhenFull.Credits grant chunk
      ↔ if acceptedRanges state.accepted > maxAcceptedRanges then
          grant.owner = none ∧ ∃ owner, state.Credits ⟨owner, grant.attempt⟩ chunk
        else state.Credits grant chunk := by
  split
  · rename_i full
    obtain ⟨_ | owner, attempt⟩ := grant
    · have listed : (∃ owner, state.Credits ⟨owner, attempt⟩ chunk)
          ↔ ∃ set, (attempt, set) ∈ state.acceptedGenerations ∧ chunk ∈ set := by
        simp only [Credits, mem_generation, mem_acceptedGenerations]
        tauto
      rw [listed]
      simp only [Credits, recordOf, foldAcceptedWhenFull, full, if_true, foldAccepted,
        ← List.foldl_flatMap, mem_foldl_foldGeneration, true_and]
      simp only [acceptedGenerations, List.mem_append, or_and_right, exists_or, mem_generation,
        mem_toList]
      exact or_comm
    · simp [Credits, recordOf, foldAcceptedWhenFull, full]
  · rename_i room
    simp [Credits, recordOf, foldAcceptedWhenFull, room]

/-- Every generation of the record has a chunk, and every chunk in it is retired and credited
once.
-/
structure RecordKept (state : TaskArrayState) : Prop where
  stored
    : ∀ owner (attempt : Nat) set,
        (state.recordOf owner)[attempt]? = some set → ∃ chunk, chunk ∈ set
  retired
    : ∀ grant chunk, state.Credits grant chunk → grant.attempt ≠ 0 ∧ chunk ∈ state.done
  once
    : ∀ grant other chunk, state.Credits grant chunk → state.Credits other chunk → grant = other

namespace RecordKept

theorem mono (kept : state.RecordKept) (records : next.recordOf = state.recordOf)
    (grown : ∀ chunk ∈ state.done, chunk ∈ next.done)
    : next.RecordKept := by
  have credits : next.Credits = state.Credits := by
    funext grant chunk
    rw [Credits, records, ← Credits]
  refine ⟨records ▸ kept.stored, fun grant chunk credited => ?_, credits ▸ kept.once⟩
  obtain ⟨positive, retired⟩ := kept.retired grant chunk (credits ▸ credited)
  exact ⟨positive, grown chunk retired⟩

/-- Folding a full record away drops, repeats and moves no chunk. -/
theorem fold (kept : state.RecordKept)
    : state.foldAcceptedWhenFull.RecordKept where
  stored owner attempt set found := by
    by_cases full : acceptedRanges state.accepted > maxAcceptedRanges
    · cases owner with
      | none =>
        simp only [recordOf, foldAcceptedWhenFull, full, if_true, foldAccepted,
          ← List.foldl_flatMap] at found
        refine some_foldl_foldGeneration (kept.stored none) (fun entry listed => ?_) found
        obtain ⟨owner, stored⟩ := mem_acceptedGenerations.mp (List.mem_append_left _ listed)
        exact kept.stored owner _ _ stored
      | some node => simp [recordOf, foldAcceptedWhenFull, full] at found
    · refine kept.stored owner attempt set (Eq.trans ?_ found)
      cases owner <;> simp [recordOf, foldAcceptedWhenFull, full]
  retired grant chunk credited := by
    rw [credits_foldAcceptedWhenFull] at credited
    split at credited
    · obtain ⟨_, owner, before⟩ := credited
      exact kept.retired ⟨owner, grant.attempt⟩ chunk before
    · exact kept.retired grant chunk credited
  once grant other chunk credited credited' := by
    rw [credits_foldAcceptedWhenFull] at credited credited'
    split at credited
    · rename_i full
      rw [if_pos full] at credited'
      obtain ⟨_, _, credited⟩ := credited
      obtain ⟨_, _, credited'⟩ := credited'
      have same := congrArg AcceptedGrant.attempt (kept.once _ _ chunk credited credited')
      cases grant
      cases other
      simp_all
    · rename_i room
      rw [if_neg room] at credited'
      exact kept.once grant other chunk credited credited'

/-- A chunk that is retired now was not credited before. -/
theorem record (kept : state.RecordKept) (positive : attempt ≠ 0) (new : chunk ∉ state.done)
    : RecordKept { state.recordAccepted node attempt chunk with done := state.done.insert chunk }
    where
  stored owner generation set found := by
    cases owner with
    | none => exact kept.stored none generation set found
    | some holder =>
      simp only [recordOf, recordAccepted, get_insert] at found
      split at found
      · rcases get_insert_cases found with ⟨_, rfl⟩ | found
        · exact ⟨chunk, by simp⟩
        · exact kept.stored (some node) generation set found
      · exact kept.stored (some holder) generation set found
  retired grant other credited := by
    rcases credits_recordAccepted.mp credited with old | ⟨rfl, rfl⟩
    · obtain ⟨positive, retired⟩ := kept.retired grant other old
      exact ⟨positive, by simp [retired]⟩
    · exact ⟨positive, by simp⟩
  once grant other index credited credited' := by
    rcases credits_recordAccepted.mp credited with old | ⟨rfl, rfl⟩ <;>
      rcases credits_recordAccepted.mp credited' with old' | ⟨rfl, same⟩
    · exact kept.once grant other index old old'
    · exact absurd (same ▸ (kept.retired grant index old).2) new
    · exact absurd (kept.retired other index old').2 new
    · rfl

/-- Generations of different owners or attempts have no chunk in common. -/
theorem apart (kept : state.RecordKept)
    : state.acceptedGenerations.Pairwise fun left right => ∀ chunk ∈ left.2, chunk ∉ right.2 := by
  have different {owner owner' : Option NodeId} {left right : Nat × IndexRangeSet}
      (stored : left ∈ (state.recordOf owner).toList)
      (stored' : right ∈ (state.recordOf owner').toList)
      (distinct : owner = owner' → left.1 ≠ right.1)
      : ∀ chunk ∈ left.2, chunk ∉ right.2 := by
    intro chunk inLeft inRight
    have same := kept.once ⟨owner, left.1⟩ ⟨owner', right.1⟩ chunk
      (mem_generation.mpr ⟨_, mem_toList.mp stored, inLeft⟩)
      (mem_generation.mpr ⟨_, mem_toList.mp stored', inRight⟩)
    injection same with owners attempts
    exact distinct owners attempts
  have within (owner) : (state.recordOf owner).toList.Pairwise
      fun left right => ∀ chunk ∈ left.2, chunk ∉ right.2 :=
    (List.pairwise_map.mp (nodup_keys_toList _)).imp_of_mem
      fun inLeft inRight distinct => different inLeft inRight fun _ => distinct
  have nodes : ∀ entry ∈ state.accepted.toList, entry.2 = state.recordOf (some entry.1) := by
    intro entry listed
    rw [recordOf, mem_toList.mp listed, Option.getD_some]
  refine List.pairwise_append.mpr ⟨List.pairwise_flatMap.mpr ⟨?_, ?_⟩, within none, ?_⟩
  · exact fun entry listed => nodes entry listed ▸ within (some entry.1)
  · refine (List.pairwise_map.mp (nodup_keys_toList state.accepted)).imp_of_mem ?_
    intro entry entry' listed listed' distinct left inLeft right inRight
    rw [nodes entry listed] at inLeft
    rw [nodes entry' listed'] at inRight
    exact different inLeft inRight fun same => absurd (Option.some.inj same) distinct
  · intro left inLeft right inRight
    obtain ⟨entry, listed, inLeft⟩ := List.mem_flatMap.mp inLeft
    rw [nodes entry listed] at inLeft
    exact @different (some entry.1) none left right inLeft inRight nofun

end RecordKept

-- Failed indices

/-- A range apart from the stored ones is counted once, stored or not. -/
private theorem recordFailure_cases (recorded : IndexRangeSet × Nat) {range : Nat × Nat}
    (ordered : range.1 ≤ range.2)
    (apart : ∀ index, range.1 ≤ index → index ≤ range.2 → index ∉ recorded.1)
    : (recordFailure recorded range).1.len + (recordFailure recorded range).2
        = recorded.1.len + recorded.2 + (range.2 - range.1 + 1)
      ∧ (∀ index ∈ (recordFailure recorded range).1,
          index ∈ recorded.1 ∨ range.1 ≤ index ∧ index ≤ range.2)
      ∧ (recorded.1.rangeCount ≤ maxFailedRanges
        → (recordFailure recorded range).1.rangeCount ≤ maxFailedRanges) := by
  unfold recordFailure
  split
  · exact ⟨(Nat.add_assoc _ _ _).symm, fun _ => Or.inl, id⟩
  have counted := recorded.1.rangeCount_insertRange_le range.1 range.2
  refine ⟨?_, fun index => mem_insertRange.mp, fun _ => by simp only; omega⟩
  simp only [len_insertRange ordered apart]
  omega

/-- The same of several ranges, by induction on them. -/
private theorem foldl_recordFailure (ranges : List (Nat × Nat))
    (canonical : RangeList.Canonical ranges) (recorded : IndexRangeSet × Nat)
    (apart : ∀ index, RangeList.Covers ranges index → index ∉ recorded.1)
    : (ranges.foldl recordFailure recorded).1.len + (ranges.foldl recordFailure recorded).2
        = recorded.1.len + recorded.2 + RangeList.width ranges
      ∧ (∀ index ∈ (ranges.foldl recordFailure recorded).1,
          index ∈ recorded.1 ∨ RangeList.Covers ranges index)
      ∧ (recorded.1.rangeCount ≤ maxFailedRanges
        → (ranges.foldl recordFailure recorded).1.rangeCount ≤ maxFailedRanges) := by
  induction ranges generalizing recorded with
  | nil => exact ⟨by simp [width], fun index member => Or.inl member, id⟩
  | cons range rest ih =>
    obtain ⟨restCanonical, ordered, separated⟩ := canonical_cons.mp canonical
    obtain ⟨sum, members, bounded⟩ := recordFailure_cases recorded ordered
      fun index low high => apart index ⟨range, by simp, low, high⟩
    obtain ⟨sum', members', bounded'⟩ := ih restCanonical (recordFailure recorded range) (by
      intro index covered stored
      rcases members index stored with old | inside
      · exact apart index (by simp [covered]) old
      obtain ⟨other, member, _, _⟩ := covered
      have := separated other member
      omega)
    refine ⟨?_, fun index member => ?_, fun small => bounded' (bounded small)⟩
    · rw [List.foldl_cons, sum', sum]
      simp [width]
      omega
    · rcases members' index member with before | covered
      · exact (members index before).imp id fun inside => by simp [inside]
      · exact Or.inr (by simp [covered])

/-- The stored failed indices belong to retired chunks, and with the overflow they make up the
failure count.
-/
structure FailuresKept (state : TaskArrayState) : Prop where
  bounded : state.failedIndices.rangeCount ≤ maxFailedRanges
  retired
    : ∀ index ∈ state.failedIndices,
        index < state.spec.count ∧ index / state.spec.chunkSize ∈ state.done
  counted : state.failedIndices.len + state.failedOverflow = state.failed

theorem FailuresKept.mono {next : TaskArrayState} (kept : state.FailuresKept)
    (spec : next.spec = state.spec) (grown : ∀ chunk ∈ state.done, chunk ∈ next.done)
    (indices : next.failedIndices = state.failedIndices)
    (overflow : next.failedOverflow = state.failedOverflow) (failed : next.failed = state.failed)
    : next.FailuresKept := by
  refine ⟨indices ▸ kept.bounded, ?_, by rw [indices, overflow, failed]; exact kept.counted⟩
  intro index member
  rw [indices] at member
  obtain ⟨inside, retired⟩ := kept.retired index member
  rw [spec]
  exact ⟨inside, grown _ retired⟩

/-- A report's failed indices lie in its own chunk, so they are new to the stored ones. -/
private theorem failuresKept_tally {node : NodeId} {result : ChunkResult} {held : IndexRangeSet}
    (valid : state.spec.Valid) (accepts : state.Accepts node result held)
    (kept : state.FailuresKept)
    : (state.tally node result).FailuresKept := by
  obtain ⟨_, _, found, within⟩ := accepts.indices
  obtain ⟨_, below, start, stop⟩ := valid.chunkRange_ordered found
  have chunkOf : ∀ index, RangeList.Covers result.failedIndices.ranges index
      → index < state.spec.count ∧ index / state.spec.chunkSize = result.chunk := by
    rintro index ⟨range, stored, _, _⟩
    obtain ⟨_, _⟩ := within range stored
    simp only at below start stop
    refine ⟨by omega, Nat.div_eq_of_lt_le ?_ ?_⟩
    · omega
    · omega
  have apart : ∀ index, RangeList.Covers result.failedIndices.ranges index
      → index ∉ state.failedIndices := by
    intro index covered member
    have retired := (kept.retired index member).2
    rw [(chunkOf index covered).2] at retired
    exact accepts.unfinished retired
  obtain ⟨sum, members, bounded⟩ := foldl_recordFailure result.failedIndices.ranges
    result.failedIndices.canonical (state.failedIndices, state.failedOverflow) apart
  refine ⟨bounded kept.bounded, ?_, ?_⟩
  · intro index member
    rw [tally_spec, tally_done, mem_insert]
    rcases members index member with old | new
    · obtain ⟨inside, retired⟩ := kept.retired index old
      exact ⟨inside, Or.inl retired⟩
    · obtain ⟨inside, same⟩ := chunkOf index new
      exact ⟨inside, Or.inr same⟩
  · have counted := kept.counted
    have previewed := accepts.previewed
    change width result.failedIndices.ranges ≤ result.failedCount at previewed
    change _ + ((result.failedIndices.ranges.foldl recordFailure (state.failedIndices,
        state.failedOverflow)).2 + (result.failedCount - width result.failedIndices.ranges))
      = state.failed + result.failedCount
    change (result.failedIndices.ranges.foldl recordFailure
        (state.failedIndices, state.failedOverflow)).1.len + _ = _
    simp only at sum
    omega

-- Retries

end TaskArrayState

def RetryCauses.sum (causes : RetryCauses) : Nat :=
  causes.exitCode + causes.signal + causes.timeout + causes.unknown + causes.launch
    + causes.unrecorded

theorem RetryCauses.total_eq_some {causes : RetryCauses} {retries : Nat}
    : causes.total = some retries ↔ causes.sum = retries ∧ retries < u64Size := by
  simp only [total, List.foldlM_cons, List.foldlM_nil, checkedAdd, sum, Option.bind_eq_bind]
  grind

/-- Counts that stay below the counter's limit add without saturating. -/
theorem RetryCauses.sum_add {causes other : RetryCauses}
    (small : causes.sum + other.sum < u64Size)
    : (causes.add other).sum = causes.sum + other.sum := by
  simp only [sum, add, saturatingAdd] at small ⊢
  omega

namespace TaskArrayState

/-- The retry causes add up to the retries, which are at most one report's worth per retired
chunk.
-/
structure RetriesKept (state : TaskArrayState) : Prop where
  causes : state.retryCauses.sum = state.retried
  bounded : state.retried ≤ state.done.len * 2 ^ 32

variable {next state : TaskArrayState} {node : NodeId}

theorem RetriesKept.mono (kept : state.RetriesKept)
    (grown : ∀ chunk ∈ state.done, chunk ∈ next.done)
    (causes : next.retryCauses = state.retryCauses) (retried : next.retried = state.retried)
    : next.RetriesKept := by
  refine ⟨by rw [causes, retried]; exact kept.causes, ?_⟩
  rw [retried]
  exact kept.bounded.trans (Nat.mul_le_mul_right _ (len_mono grown))

/-- At most all chunks are retired. -/
theorem Accounted.len_done_le (accounted : state.Accounted)
    : state.done.len ≤ state.spec.chunkCount := by
  obtain ⟨_, shows'⟩ := accounted.shown
  rw [← card_toFinset, ← Finset.card_range state.spec.chunkCount]
  apply Finset.card_le_card
  intro chunk member
  rw [Finset.mem_range]
  exact shows'.inside (show state.Placed chunk .closed by simpa [Placed] using member)

private theorem retriesKept_tally {result : ChunkResult} {held : IndexRangeSet}
    (accounted : state.Accounted) (accepts : state.Accepts node result held)
    (kept : state.RetriesKept)
    : (state.tally node result).RetriesKept := by
  have chunks := accounted.valid.chunkCount_le
  have retired := accounted.len_done_le
  have bounded := kept.bounded
  have causes := kept.causes
  have small := result.retried_lt
  obtain ⟨reported, _⟩ := RetryCauses.total_eq_some.mp accepts.causes
  have inserted : (state.done.insert result.chunk).len = state.done.len + 1 :=
    len_insert accepts.unfinished
  simp only [maxChunks] at chunks
  refine ⟨?_, ?_⟩
  · change (state.retryCauses.add result.retryCauses).sum = state.retried + result.retried
    rw [RetryCauses.sum_add, causes, reported]
    rw [causes, reported, u64Size]
    omega
  · rw [tally_done, inserted, Nat.add_mul]
    change state.retried + result.retried ≤ _
    omega

-- All invariants

/-- What holds of every reachable task array, whatever its reports say about durations. -/
structure WellFormed (state : TaskArrayState) : Prop where
  validated : state.spec.validate = .ok ()
  accounted : state.Accounted
  closed : state.QueueClosed
  holders
    : ∀ node held,
        state.grants[node]? = some held
        → validNodeId node = true ∧ ∃ chunk, chunk ∈ held
  retirers : ∀ node generations,
      state.accepted[node]? = some generations → validNodeId node = true
  attempts
    : ∀ chunk attempt,
        state.attempts[chunk]? = some attempt
        → chunk < state.spec.chunkCount ∧ 2 ≤ attempt ∧ chunk ∉ state.done
  accepted : state.RecordKept
  failures : state.FailuresKept
  retries : state.RetriesKept

/-- Retired chunks stay retired. -/
theorem Move.done_mono (move : Move state next) {chunk : Nat} (retired : chunk ∈ state.done)
    : chunk ∈ next.done := by
  cases move with
  | handOut => exact retired
  | tally => simp [retired]
  | stop reason running => simp [TaskArrayState.stop, running, retired]
  | writeOff => simp [TaskArrayState.writeOff, retired]
  | returnToQueue => exact retired

section

variable (wellFormed : state.WellFormed)
include wellFormed

private theorem Move.holders (move : Move state next)
    {held : IndexRangeSet} (holds : next.grants[node]? = some held)
    : validNodeId node = true ∧ ∃ chunk, chunk ∈ held := by
  have before := wellFormed.holders
  cases move with
  | handOut owner _ _ some =>
    rename_i other chunks
    rcases get_insert_cases holds with ⟨rfl, rfl⟩ | holds
    · obtain ⟨chunk, member⟩ := some
      exact ⟨owner, chunk, by simp [member]⟩
    · exact before node held holds
  | tally accepts =>
    rename_i other result old
    rw [tally_grants, get_releaseGrant accepts.holds] at holds
    split at holds
    · rename_i same
      split at holds
      · cases holds
      rename_i remaining
      cases holds
      exact ⟨same ▸ (before other old accepts.holds).1,
        isEmpty_eq_false_iff.mp (by simpa using remaining)⟩
    · exact before node held holds
  | stop reason running =>
    exact before node held (by simpa [TaskArrayState.stop, running] using holds)
  | writeOff =>
    simp only [TaskArrayState.writeOff, get_erase] at holds
    split at holds
    · cases holds
    · exact before node held holds
  | returnToQueue =>
    simp only [TaskArrayState.returnToQueue, get_erase] at holds
    split at holds
    · cases holds
    · exact before node held holds

private theorem Move.retirers (move : Move state next)
    {generations : BTreeMap Nat IndexRangeSet} (retired : next.accepted[node]? = some generations)
    : validNodeId node = true := by
  have before := wellFormed.retirers
  cases move with
  | handOut | writeOff | returnToQueue => exact before node _ retired
  | tally accepts =>
    rename_i other result held
    change (if _ then _ else state.accepted.insert other _ : BTreeMap _ _)[node]? = _ at retired
    split at retired
    · simp at retired
    rcases get_insert_cases retired with ⟨rfl, _⟩ | retired
    · exact (wellFormed.holders other held accepts.holds).1
    · exact before node _ retired
  | stop reason running =>
    exact before node _ (by simpa [TaskArrayState.stop, running] using retired)

private theorem Move.attempts (move : Move state next)
    {chunk attempt : Nat} (stored : next.attempts[chunk]? = some attempt)
    : chunk < state.spec.chunkCount ∧ 2 ≤ attempt ∧ chunk ∉ next.done := by
  have before := wellFormed.attempts
  obtain ⟨_, shows'⟩ := wellFormed.accounted.shown
  cases move with
  | handOut => exact before chunk attempt stored
  | tally accepts =>
    rename_i node result held
    rw [tally_attempts, get_erase] at stored
    split at stored
    · cases stored
    rename_i different
    obtain ⟨inside, later, live⟩ := before chunk attempt stored
    exact ⟨inside, later, by simp [live, Ne.symm different]⟩
  | stop reason running =>
    simp only [TaskArrayState.stop, running, Option.isSome_none, Bool.false_eq_true, if_false,
      get_filter, Option.filter_eq_some_iff, Bool.not_eq_true', contains_eq_false_iff] at stored ⊢
    obtain ⟨inside, later, live⟩ := before chunk attempt stored.1
    exact ⟨inside, later, by simp [live, stored.2]⟩
  | writeOff =>
    simp only [TaskArrayState.writeOff] at stored ⊢
    rw [get_foldl_erase] at stored
    split at stored
    · cases stored
    rename_i elsewhere
    obtain ⟨inside, later, live⟩ := before chunk attempt stored
    exact ⟨inside, later, by simpa [live] using elsewhere⟩
  | returnToQueue holds running =>
    rename_i node chunks
    simp only [TaskArrayState.returnToQueue] at stored ⊢
    rw [get_foldl_raise _ chunks.nodup_iter] at stored
    split at stored
    · rename_i member
      have placed : state.Placed chunk (.held node) :=
        ⟨chunks, holds, IndexRangeSet.mem_iter.mp member⟩
      refine ⟨shows'.inside placed, ?_, ?_⟩
      · have positive : 1 ≤ state.attempts[chunk]?.getD 1 := by
          cases found : state.attempts[chunk]? with
          | none => exact le_refl 1
          | some value =>
            have := (before chunk value found).2.1
            simp only [Option.getD_some]
            omega
        injection stored with raised
        simp only [saturatingAdd, u64Size] at raised
        omega
      · intro retired
        cases shows'.unique placed (show state.Placed chunk .closed from retired)
    · exact before chunk attempt stored

/-- The attempt a chunk is on is at least one. -/
theorem WellFormed.attemptOf_pos (chunk : Nat)
    : state.attemptOf chunk ≠ 0 := by
  simp only [attemptOf]
  cases found : state.attempts[chunk]? with
  | none => exact Nat.one_ne_zero
  | some attempt =>
    have := (wellFormed.attempts chunk attempt found).2.1
    simp only [Option.getD_some]
    omega

private theorem Move.accepted (move : Move state next)
    : next.RecordKept := by
  have grown : ∀ chunk ∈ state.done, chunk ∈ next.done := fun _ retired => move.done_mono retired
  cases move with
  | handOut | writeOff | returnToQueue => exact wellFormed.accepted.mono rfl grown
  | tally accepts =>
    rename_i result held
    have positive : result.attempt ≠ 0 :=
      accepts.attempt ▸ wellFormed.attemptOf_pos result.chunk
    exact (wellFormed.accepted.record positive accepts.unfinished).fold.mono rfl fun _ => id
  | stop reason running =>
    refine wellFormed.accepted.mono ?_ grown
    simp [TaskArrayState.stop, running, funext_iff, recordOf]

end

/-- Every move keeps every invariant. -/
theorem Move.wellFormed (wellFormed : state.WellFormed) (move : Move state next)
    : next.WellFormed where
  validated := move.spec ▸ wellFormed.validated
  accounted := move.accounted wellFormed.accounted
  closed := move.queueClosed wellFormed.closed
  holders := fun _ _ holds => move.holders wellFormed holds
  retirers := fun _ _ retired => move.retirers wellFormed retired
  attempts := fun _ _ stored => move.spec ▸ move.attempts wellFormed stored
  accepted := move.accepted wellFormed
  failures := by
    have grown : ∀ chunk ∈ state.done, chunk ∈ next.done := fun _ retired =>
      move.done_mono retired
    have spec := move.spec
    cases move with
    | handOut | writeOff | returnToQueue => exact wellFormed.failures.mono spec grown rfl rfl rfl
    | tally accepts =>
      exact failuresKept_tally wellFormed.accounted.valid accepts wellFormed.failures
    | stop reason running =>
      refine wellFormed.failures.mono spec grown ?_ ?_ ?_ <;>
        simp [TaskArrayState.stop, running]
  retries := by
    have grown : ∀ chunk ∈ state.done, chunk ∈ next.done := fun _ retired =>
      move.done_mono retired
    cases move with
    | handOut | writeOff | returnToQueue => exact wellFormed.retries.mono grown rfl rfl
    | tally accepts => exact retriesKept_tally wellFormed.accounted accepts wellFormed.retries
    | stop reason running =>
      refine wellFormed.retries.mono grown ?_ ?_ <;> simp [TaskArrayState.stop, running]

theorem wellFormed_new {spec : TaskArraySpec} {submitted : Nat}
    (created : new spec submitted = .ok state)
    : state.WellFormed := by
  have accounted := accounted_new created
  unfold new at created
  split at created
  · cases created
  rename_i accepted
  cases created
  refine ⟨accepted, accounted, queueClosed_of_running rfl, ?_, ?_, ?_, ?_, ?_, ?_⟩
  · intro node held holds
    simp at holds
  · intro node generations retired
    simp at retired
  · intro chunk attempt stored
    simp at stored
  · refine ⟨fun owner => ?_, fun grant => ?_, fun grant => ?_⟩
    · cases owner <;> simp [recordOf]
    all_goals
      obtain ⟨_ | _, _⟩ := grant <;> simp [Credits, recordOf]
  · exact ⟨Nat.zero_le _, fun index member => absurd member (not_mem_empty index), rfl⟩
  · exact ⟨rfl, Nat.zero_le _⟩

theorem Reachable.wellFormed (reachable : state.Reachable)
    : state.WellFormed :=
  reachable.induction (fun _ _ _ created => wellFormed_new created)
    fun _ _ wellFormed move => move.wellFormed wellFormed

end TaskArrayState

end Reliaburger
