import Reliaburger.Library.TreeMap
import Reliaburger.TaskArray.IndexRangeSet

/-! A task array: its count and policy, the chunks its indices are grouped into, and the leader's
view of it, with the chunks that are queued, which node holds which, and what the finished ones
produced. Every operation is a pure function of the state; a refused operation reports its error
and no new state.
-/

namespace Reliaburger

def maxTaskCount : Nat := 2 ^ 24

def maxChunkSize : Nat := 2 ^ 16

def maxChunks : Nat := 2 ^ 16

def defaultChunkSize : Nat := 1024

/-- Most attempts a task may be given. -/
def maxAttempts : Nat := 10

def defaultMaxAttempts : Nat := 3

def maxTaskTimeoutSecs : Nat := 86400

def defaultTaskTimeoutSecs : Nat := 600

structure TaskArraySpec where
  count : Nat
  chunkSize : Nat
  maxAttempts : Nat
  maxFailedIndexes : Option Nat
  taskTimeoutSecs : Nat
  perNodeConcurrency : Option Nat
deriving DecidableEq, Repr

inductive TaskArraySpecError where
  | countOutOfRange (count : Nat)
  | chunkSizeOutOfRange (chunkSize : Nat)
  | tooManyChunks (count chunkSize chunks : Nat)
  | attemptsOutOfRange (maxAttempts : Nat)
  | timeoutOutOfRange (seconds : Nat)
  | zeroConcurrency
  | unsupportedTemplate (found : String)
  | templateField (field : String)
deriving DecidableEq, Repr

/-- The message each refusal carries to the caller. -/
def TaskArraySpecError.text : TaskArraySpecError → String
  | .countOutOfRange count =>
    s!"task count must be between 1 and {maxTaskCount}, got {count}"
  | .chunkSizeOutOfRange chunkSize =>
    s!"chunk size must be between 1 and {maxChunkSize}, got {chunkSize}"
  | .tooManyChunks count chunkSize chunks =>
    s!"{count} tasks in chunks of {chunkSize} is {chunks} chunks; the limit is {maxChunks}"
  | .attemptsOutOfRange attempts =>
    s!"max attempts must be between 1 and {maxAttempts}, got {attempts}"
  | .timeoutOutOfRange seconds =>
    s!"task timeout must be between 0 (no deadline) and {maxTaskTimeoutSecs} seconds, got {seconds}"
  | .zeroConcurrency => "per-node concurrency must be at least 1"
  | .unsupportedTemplate found =>
    "a task array template needs exactly one of `image` or `exec`; " ++ found ++ " isn't supported"
  | .templateField field => "a task array template can't have " ++ field

namespace TaskArraySpec

def withCount (count : Nat) : TaskArraySpec where
  count := count
  chunkSize := defaultChunkSize
  maxAttempts := defaultMaxAttempts
  maxFailedIndexes := none
  taskTimeoutSecs := defaultTaskTimeoutSecs
  perNodeConcurrency := none

/-- Number of chunks, rounding up. Zero only for an invalid spec. -/
def chunkCount (spec : TaskArraySpec) : Nat :=
  (spec.count + (max spec.chunkSize 1 - 1)) / max spec.chunkSize 1

/-- Check every limit. Chunk maths below assumes a validated spec. -/
def validate (spec : TaskArraySpec) : Except TaskArraySpecError Unit :=
  if spec.count = 0 ∨ spec.count > maxTaskCount then
    .error (.countOutOfRange spec.count)
  else if spec.chunkSize = 0 ∨ spec.chunkSize > maxChunkSize then
    .error (.chunkSizeOutOfRange spec.chunkSize)
  else if spec.chunkCount > maxChunks then
    .error (.tooManyChunks spec.count spec.chunkSize spec.chunkCount)
  else if spec.maxAttempts = 0 ∨ spec.maxAttempts > Reliaburger.maxAttempts then
    .error (.attemptsOutOfRange spec.maxAttempts)
  else if spec.taskTimeoutSecs > maxTaskTimeoutSecs then
    .error (.timeoutOutOfRange spec.taskTimeoutSecs)
  else if spec.perNodeConcurrency = some 0 then
    .error .zeroConcurrency
  else
    .ok ()

/-- The indices chunk `chunk` holds, as the first and last of them; the last chunk may be
short. `none` for a chunk past the end.
-/
def chunkRange (spec : TaskArraySpec) (chunk : Nat) : Option (Nat × Nat) :=
  if chunk ≥ spec.chunkCount then none
  else
    let first := chunk * spec.chunkSize
    some (first, min (first + (spec.chunkSize - 1)) (spec.count - 1))

def tasksInChunk (spec : TaskArraySpec) (chunk : Nat) : Nat :=
  match spec.chunkRange chunk with
  | some range => range.2 - range.1 + 1
  | none => 0

/-- What a validated spec guarantees to the chunk arithmetic. -/
structure Valid (spec : TaskArraySpec) : Prop where
  count_pos : 0 < spec.count
  count_le : spec.count ≤ maxTaskCount
  chunkSize_pos : 0 < spec.chunkSize
  chunkSize_le : spec.chunkSize ≤ maxChunkSize
  chunkCount_le : spec.chunkCount ≤ maxChunks

variable {spec : TaskArraySpec}

theorem valid_of_validate (accepted : spec.validate = .ok ())
    : spec.Valid := by
  unfold validate at accepted
  split at accepted
  · simp at accepted
  split at accepted
  · simp at accepted
  split at accepted
  · simp at accepted
  exact ⟨by omega, by omega, by omega, by omega, by omega⟩

/-- The chunk count rounds `count / chunkSize` up: it bounds the count from both sides. -/
theorem Valid.chunkCount_bounds (valid : spec.Valid)
    : spec.count ≤ spec.chunkCount * spec.chunkSize
      ∧ (spec.chunkCount - 1) * spec.chunkSize < spec.count
      ∧ 0 < spec.chunkCount := by
  have size := valid.chunkSize_pos
  have some := valid.count_pos
  have large : max spec.chunkSize 1 = spec.chunkSize := by omega
  have quotient : spec.chunkCount = (spec.count - 1) / spec.chunkSize + 1 := by
    have shifted : spec.count + (spec.chunkSize - 1) = (spec.count - 1) + spec.chunkSize := by
      omega
    simp only [chunkCount, large, shifted, Nat.add_div_right _ size]
  have division := Nat.div_add_mod (spec.count - 1) spec.chunkSize
  have remainder := Nat.mod_lt (spec.count - 1) size
  rw [quotient, Nat.add_sub_cancel, Nat.add_mul, Nat.one_mul, Nat.mul_comm]
  exact ⟨by omega, by omega, Nat.succ_pos _⟩

/-- Every chunk before the last one is full. -/
theorem Valid.tasksInChunk_full (valid : spec.Valid) {chunk : Nat}
    (before : chunk + 1 < spec.chunkCount)
    : spec.tasksInChunk chunk = spec.chunkSize := by
  obtain ⟨_, _, _⟩ := valid.chunkCount_bounds
  have size := valid.chunkSize_pos
  have fits : (chunk + 1) * spec.chunkSize ≤ (spec.chunkCount - 1) * spec.chunkSize :=
    Nat.mul_le_mul_right _ (by omega)
  have expanded := Nat.add_one_mul chunk spec.chunkSize
  simp only [tasksInChunk, chunkRange, if_neg (show ¬ chunk ≥ spec.chunkCount by omega)]
  omega

/-- The last chunk holds what the full ones leave over, at least one task. -/
theorem Valid.tasksInChunk_last (valid : spec.Valid)
    : spec.tasksInChunk (spec.chunkCount - 1) + (spec.chunkCount - 1) * spec.chunkSize
        = spec.count
      ∧ 0 < spec.tasksInChunk (spec.chunkCount - 1)
      ∧ spec.tasksInChunk (spec.chunkCount - 1) ≤ spec.chunkSize := by
  obtain ⟨_, _, positive⟩ := valid.chunkCount_bounds
  have size := valid.chunkSize_pos
  have expanded : spec.chunkCount * spec.chunkSize
      = (spec.chunkCount - 1) * spec.chunkSize + spec.chunkSize := by
    conv_lhs => rw [← Nat.sub_add_cancel positive, Nat.add_mul, Nat.one_mul]
  simp only [tasksInChunk, chunkRange,
    if_neg (show ¬ spec.chunkCount - 1 ≥ spec.chunkCount by omega)]
  omega

theorem Valid.chunkRange_ordered (valid : spec.Valid) {chunk : Nat} {range : Nat × Nat}
    (found : spec.chunkRange chunk = some range)
    : range.1 ≤ range.2
      ∧ range.2 < spec.count
      ∧ range.1 = chunk * spec.chunkSize
      ∧ range.2 < (chunk + 1) * spec.chunkSize := by
  obtain ⟨_, _, _⟩ := valid.chunkCount_bounds
  have size := valid.chunkSize_pos
  have some := valid.count_pos
  unfold chunkRange at found
  split at found
  · simp at found
  have fits : chunk * spec.chunkSize ≤ (spec.chunkCount - 1) * spec.chunkSize :=
    Nat.mul_le_mul_right _ (by omega)
  have expanded := Nat.add_one_mul chunk spec.chunkSize
  simp only [Option.some.injEq] at found
  subst found
  rw [expanded]
  exact ⟨by simp only; omega, by simp only; omega, rfl, by simp only; omega⟩

/-- The chunks partition the tasks: their sizes add up to the count. -/
theorem Valid.sum_tasksInChunk (valid : spec.Valid)
    : ∑ chunk ∈ Finset.range spec.chunkCount, spec.tasksInChunk chunk = spec.count := by
  obtain ⟨_, _, _⟩ := valid.chunkCount_bounds
  have full : ∑ chunk ∈ Finset.range (spec.chunkCount - 1), spec.tasksInChunk chunk
      = (spec.chunkCount - 1) * spec.chunkSize := by
    rw [Finset.sum_congr rfl (g := fun _ => spec.chunkSize)]
    · simp
    intro chunk member
    have := Finset.mem_range.mp member
    exact valid.tasksInChunk_full (by omega)
  have last := valid.tasksInChunk_last.1
  have whole : spec.chunkCount = (spec.chunkCount - 1) + 1 := by omega
  rw [whole, Finset.sum_range_succ, full, Nat.add_comm]
  exact last

end TaskArraySpec

-- The state

/-- Most failed-index ranges kept per array. -/
def maxFailedRanges : Nat := 10000

/-- Most sparse failure ranges in one worker report. -/
def maxChunkFailedRanges : Nat := 256

/-- Most ranges the per-node accepted record may hold before it is folded. -/
def maxAcceptedRanges : Nat := 4096

/-- Recent durations are halved while they hold more samples than this. -/
def recentDurationSamples : Nat := 4096

/-- One past the largest 64-bit counter. -/
def u64Size : Nat := 2 ^ 64

instance : NeZero u64Size := ⟨by decide⟩

abbrev NodeId : Type := String

/-- The control characters of Unicode's category `Cc`. -/
def isControl (char : Char) : Bool :=
  char.toNat < 0x20 || (0x7f ≤ char.toNat && char.toNat ≤ 0x9f)

/-- An identity of 1 to 128 bytes without control characters. -/
def validIdentity (identity : String) : Bool :=
  !identity.toList.isEmpty && identity.utf8ByteSize ≤ 128 && !identity.toList.any isControl

def validNodeId (node : NodeId) : Bool :=
  validIdentity node

/-- Why an array stopped before running every task. -/
inductive StopReason where
  | cancelled
  | tooManyFailures
  | unrunnable
deriving DecidableEq, Repr

/-- Lifecycle of a task array, derived from its chunks and counts. -/
inductive TaskArrayStatus where
  | running
  | stopping
  | succeeded
  | completedWithFailures
  | failed
  | cancelled
deriving DecidableEq, Repr

/-- Whether nothing will change any more. -/
def TaskArrayStatus.isTerminal : TaskArrayStatus → Bool
  | .running | .stopping => false
  | .succeeded | .completedWithFailures | .failed | .cancelled => true

/-- Addition of 64-bit counters that reports overflow. -/
def checkedAdd (left right : Nat) : Option Nat :=
  if left + right < u64Size then some (left + right) else none

/-- Addition of 64-bit counters that stops at the largest one. -/
def saturatingAdd (left right : Nat) : Nat :=
  min (left + right) (u64Size - 1)

/-- Why retried attempts failed: one count per extra attempt, by the failed attempt's outcome.
-/
structure RetryCauses where
  exitCode : Nat := 0
  signal : Nat := 0
  timeout : Nat := 0
  unknown : Nat := 0
  launch : Nat := 0
  unrecorded : Nat := 0
deriving DecidableEq, Repr

/-- All counted retries, or `none` if the sum overflows. -/
def RetryCauses.total (causes : RetryCauses) : Option Nat :=
  [causes.signal, causes.timeout, causes.unknown, causes.launch, causes.unrecorded].foldlM
    checkedAdd causes.exitCode

/-- Add another set of counts, saturating rather than wrapping. -/
def RetryCauses.add (causes other : RetryCauses) : RetryCauses where
  exitCode := saturatingAdd causes.exitCode other.exitCode
  signal := saturatingAdd causes.signal other.signal
  timeout := saturatingAdd causes.timeout other.timeout
  unknown := saturatingAdd causes.unknown other.unknown
  launch := saturatingAdd causes.launch other.launch
  unrecorded := saturatingAdd causes.unrecorded other.unrecorded

/-- What a node reports when it has finished one chunk. The numbers are those of the report's
fixed-width fields, so each carries its bound.
-/
structure ChunkResult where
  durationCounts : Vector Nat 16
  chunk : Nat
  attempt : Nat
  succeeded : Nat
  failedCount : Nat
  failedIndices : IndexRangeSet
  notRun : Nat
  retried : Nat
  retryCauses : RetryCauses
  durationCounts_lt : ∀ count ∈ durationCounts.toList, count < 2 ^ 64
  succeeded_lt : succeeded < 2 ^ 32
  failedCount_lt : failedCount < 2 ^ 32
  notRun_lt : notRun < 2 ^ 32
  retried_lt : retried < 2 ^ 32
deriving DecidableEq

/-- The grant whose report retired a chunk; the owner is lost once the record is folded. -/
structure AcceptedGrant where
  owner : Option NodeId
  attempt : Nat
deriving DecidableEq, Repr

inductive CompletionOutcome where
  | applied
  | duplicate
deriving DecidableEq, Repr

inductive TaskArrayError where
  | unknownChunk (chunk : Nat)
  | notQueued (chunk : Nat)
  | notHeld (chunk : Nat) (node : String)
  | staleAttempt (chunk reported current : Nat)
  | countMismatch (chunk expected reported : Nat)
  | indexOutsideChunk (chunk : Nat)
  | failurePreviewTooLarge (chunk : Nat)
  | stopped
  | invalidOwner
  | retryCauseMismatch (chunk retried causes : Nat)
deriving DecidableEq, Repr

structure TaskArraySummary where
  total : Nat
  succeeded : Nat
  failed : Nat
  notRun : Nat
  retried : Nat
  retryCauses : RetryCauses
  queued : Nat
  held : Nat
  chunksDone : Nat
  status : TaskArrayStatus
deriving DecidableEq, Repr

/-- The leader's durable view of one task array. -/
structure TaskArrayState where
  spec : TaskArraySpec
  submittedAtEpochSecs : Nat
  queued : IndexRangeSet
  grants : BTreeMap NodeId IndexRangeSet
  /-- Grant attempt per chunk, stored only once it is above 1. -/
  attempts : BTreeMap Nat Nat
  done : IndexRangeSet
  accepted : BTreeMap NodeId (BTreeMap Nat IndexRangeSet)
  acceptedFolded : BTreeMap Nat IndexRangeSet
  failedIndices : IndexRangeSet
  failedOverflow : Nat
  succeeded : Nat
  failed : Nat
  notRun : Nat
  retried : Nat
  retryCauses : RetryCauses
  stopped : Option StopReason
  durationCounts : Vector Nat 16
  recentDurationCounts : Vector Nat 16
deriving DecidableEq

namespace TaskArrayState

def new (spec : TaskArraySpec) (submittedAtEpochSecs : Nat)
    : Except TaskArraySpecError TaskArrayState :=
  match spec.validate with
  | .error refused => .error refused
  | .ok () =>
    .ok {
      spec
      submittedAtEpochSecs
      queued := IndexRangeSet.fromRange 0 (spec.chunkCount - 1)
      grants := ∅
      attempts := ∅
      done := ∅
      accepted := ∅
      acceptedFolded := ∅
      failedIndices := ∅
      failedOverflow := 0
      succeeded := 0
      failed := 0
      notRun := 0
      retried := 0
      retryCauses := {}
      stopped := none
      durationCounts := Vector.replicate 16 0
      recentDurationCounts := Vector.replicate 16 0
    }

/-- The first generation of one node's accepted record that holds the chunk. -/
def acceptedAttempt (chunk : Nat) (generations : BTreeMap Nat IndexRangeSet) : Option Nat :=
  (generations.toList.find? (fun entry => entry.2.contains chunk)).map Prod.fst

variable (state : TaskArrayState)

def acceptedGrant (chunk : Nat) : Option AcceptedGrant :=
  match state.accepted.toList.findSome? (fun entry =>
      (acceptedAttempt chunk entry.2).map (fun attempt => ⟨some entry.1, attempt⟩)) with
  | some grant => some grant
  | none => (acceptedAttempt chunk state.acceptedFolded).map (fun attempt => ⟨none, attempt⟩)

/-- Merge one generation of accepted chunks into a record keyed by attempt. -/
def foldGeneration (folded : BTreeMap Nat IndexRangeSet) (entry : Nat × IndexRangeSet)
    : BTreeMap Nat IndexRangeSet :=
  folded.insert entry.1 ((folded[entry.1]?.getD ∅).extendFrom entry.2)

def acceptedRanges (accepted : BTreeMap NodeId (BTreeMap Nat IndexRangeSet)) : Nat :=
  BTreeMap.total
    (fun _ generations => BTreeMap.total (fun _ chunks => chunks.rangeCount) generations)
    accepted

/-- The whole per-node record merged into the owner-free one. -/
def foldAccepted (accepted : BTreeMap NodeId (BTreeMap Nat IndexRangeSet))
    (acceptedFolded : BTreeMap Nat IndexRangeSet)
    : BTreeMap Nat IndexRangeSet :=
  accepted.toList.foldl (fun folded entry => entry.2.toList.foldl foldGeneration folded)
    acceptedFolded

/-- Fold the per-node accepted record into the owner-free one once it holds too many ranges.
-/
def foldAcceptedWhenFull : TaskArrayState :=
  let full := acceptedRanges state.accepted > maxAcceptedRanges
  { state with
    accepted := if full then ∅ else state.accepted
    acceptedFolded :=
      if full then foldAccepted state.accepted state.acceptedFolded else state.acceptedFolded }

def heldBy (node : NodeId) : Option IndexRangeSet :=
  state.grants[node]?

/-- The grant attempt a chunk is on: 1 until a node loss re-queues it. -/
def attemptOf (chunk : Nat) : Nat :=
  state.attempts[chunk]?.getD 1

def notQueuedError (chunk : Nat) : TaskArrayError :=
  if chunk ≥ state.spec.chunkCount then .unknownChunk chunk else .notQueued chunk

/-- Move `chunks` from the queue to the node's grant. -/
def handOut (node : NodeId) (chunks : IndexRangeSet) : TaskArrayState :=
  { state with
    queued :=
      chunks.ranges.foldl (fun queued range => queued.removeRange range.1 range.2) state.queued
    grants := state.grants.insert node ((state.grants[node]?.getD ∅).extendFrom chunks) }

/-- Hand `chunks` to `node`. Every chunk must be queued; nothing moves unless all are. -/
def grant (node : NodeId) (chunks : IndexRangeSet) : Except TaskArrayError TaskArrayState :=
  if !validNodeId node then .error .invalidOwner
  else if state.stopped.isSome then .error .stopped
  else
    match chunks.ranges.find? (fun range => !state.queued.containsRange range.1 range.2) with
    | some range =>
      let chunk :=
        ((List.range' range.1 (range.2 - range.1 + 1)).find?
          (fun chunk => !state.queued.contains chunk)).getD range.1
      .error (state.notQueuedError chunk)
    | none => if chunks.isEmpty then .ok state else .ok (state.handOut node chunks)

/-- Number of tasks in a set of chunks, without iterating tasks: every chunk is full except
possibly the last one.
-/
def tasksIn (chunks : IndexRangeSet) : Nat :=
  let lastChunk := state.spec.chunkCount - 1
  let tasks := chunks.len * state.spec.chunkSize
  if chunks.contains lastChunk then
    tasks - (state.spec.chunkSize - state.spec.tasksInChunk lastChunk)
  else tasks

/-- The grants without one chunk of a node's, and without the node once it holds none. -/
def releaseGrant (grants : BTreeMap NodeId IndexRangeSet) (node : NodeId) (chunk : Nat)
    : BTreeMap NodeId IndexRangeSet :=
  match grants[node]? with
  | none => grants
  | some held =>
    let remaining := held.remove chunk
    if remaining.isEmpty then grants.erase node else grants.insert node remaining

def release (node : NodeId) (chunk : Nat) : TaskArrayState :=
  { state with grants := releaseGrant state.grants node chunk }

/-- Stop the array: no more grants, queued chunks count as not run. The first reason stays. -/
def stop (reason : StopReason) : TaskArrayState :=
  if state.stopped.isSome then state
  else
    { state with
      stopped := some reason
      queued := ∅
      -- Requeued chunks carry a later attempt; a retired chunk has none.
      attempts := state.attempts.filter (fun chunk _ => !state.queued.contains chunk)
      notRun := state.notRun + state.tasksIn state.queued
      done := state.done.extendFrom state.queued }

def cancel : TaskArrayState :=
  state.stop .cancelled

/-- Fail the array because no node can run it. -/
def refuseUnrunnable : TaskArrayState :=
  state.stop .unrunnable

/-- Counters of a release build wrap at 64 bits. -/
def wrappingAdd (counts added : Vector Nat 16) : Vector Nat 16 :=
  Vector.zipWith (fun count more => (count + more) % u64Size) counts added

/-- Halve every bucket while the recent histogram holds too many samples. A 64-bit bucket is
zero after 64 halvings, so the bound on the rounds is never what ends the loop.
-/
def decayRecent : Nat → Vector Nat 16 → Vector Nat 16
  | 0, counts => counts
  | rounds + 1, counts =>
    if counts.sum % u64Size > recentDurationSamples then
      decayRecent rounds (counts.map (· / 2))
    else counts

def addDurations (counts : Vector Nat 16) : TaskArrayState :=
  { state with
    durationCounts := wrappingAdd state.durationCounts counts
    recentDurationCounts := decayRecent 64 (wrappingAdd state.recentDurationCounts counts) }

/-- Store one failed range, or only count it once the range cap is reached. -/
def recordFailure (recorded : IndexRangeSet × Nat) (range : Nat × Nat) : IndexRangeSet × Nat :=
  if recorded.1.rangeCount ≥ maxFailedRanges then
    (recorded.1, recorded.2 + (range.2 - range.1 + 1))
  else (recorded.1.insertRange range.1 range.2, recorded.2)

def recordFailures (failures : IndexRangeSet) : TaskArrayState :=
  let recorded := failures.ranges.foldl recordFailure (state.failedIndices, state.failedOverflow)
  { state with failedIndices := recorded.1, failedOverflow := recorded.2 }

/-- Remember which node's report at which attempt retired the chunk. -/
def recordAccepted (node : NodeId) (attempt chunk : Nat) : TaskArrayState :=
  let generations := state.accepted[node]?.getD ∅
  let chunks := (generations[attempt]?.getD ∅).insert chunk
  { state with accepted := state.accepted.insert node (generations.insert attempt chunks) }

/-- Move a reported chunk out of the node's grant and into the retired ones. -/
def retire (node : NodeId) (result : ChunkResult) : TaskArrayState :=
  let state := state.release node result.chunk
  let state :=
    { state with
      attempts := state.attempts.erase result.chunk
      done := state.done.insert result.chunk }
  (state.recordAccepted node result.attempt result.chunk).foldAcceptedWhenFull

def addCounts (result : ChunkResult) : TaskArrayState :=
  { state with
    succeeded := state.succeeded + result.succeeded
    failed := state.failed + result.failedCount
    notRun := state.notRun + result.notRun
    retried := state.retried + result.retried
    retryCauses := state.retryCauses.add result.retryCauses }

/-- Count the failures the report's preview leaves out. -/
def countOmitted (result : ChunkResult) : TaskArrayState :=
  { state with
    failedOverflow := state.failedOverflow + (result.failedCount - result.failedIndices.len) }

/-- Stop once more indices failed than the policy allows. -/
def stopWhenFailed : TaskArrayState :=
  match state.spec.maxFailedIndexes with
  | some limit => if state.failed > limit then state.stop .tooManyFailures else state
  | none => state

/-- Retire a reported chunk and add up what its report says. -/
def tally (node : NodeId) (result : ChunkResult) : TaskArrayState :=
  ((((state.retire node result).addDurations result.durationCounts).addCounts
    result).recordFailures result.failedIndices).countOmitted result

def accept (node : NodeId) (result : ChunkResult) : TaskArrayState :=
  (state.tally node result).stopWhenFailed

/-- Retire a chunk `node` finished. Only the node currently holding the chunk, at the current
attempt, may retire it; a repeat report of a done chunk is an idempotent duplicate.
-/
def complete (node : NodeId) (result : ChunkResult)
    : Except TaskArrayError (CompletionOutcome × TaskArrayState) :=
  let chunk := result.chunk
  match state.spec.chunkRange chunk with
  | none => .error (.unknownChunk chunk)
  | some range =>
    if state.done.contains chunk then .ok (.duplicate, state)
    else if !(state.grants[node]?.any (fun held => held.contains chunk)) then
      .error (.notHeld chunk node)
    else
      let current := state.attemptOf chunk
      if result.attempt ≠ current then .error (.staleAttempt chunk result.attempt current)
      else if result.failedIndices.rangeCount > maxChunkFailedRanges then
        .error (.failurePreviewTooLarge chunk)
      else
        let expected := range.2 - range.1 + 1
        let reported := result.succeeded + result.failedCount + result.notRun
        if reported ≠ expected ∨ result.failedIndices.len > result.failedCount then
          .error (.countMismatch chunk expected reported)
        else if result.failedIndices.ranges.any
            (fun failed => failed.1 < range.1 || failed.2 > range.2) then
          .error (.indexOutsideChunk chunk)
        else
          let causes := result.retryCauses.total.getD (u64Size - 1)
          if causes ≠ result.retried then
            .error (.retryCauseMismatch chunk result.retried causes)
          else .ok (.applied, state.accept node result)

/-- Count the chunks taken from `node` as not run; a stopped array does not run them again. -/
def writeOff (node : NodeId) (chunks : IndexRangeSet) : TaskArrayState :=
  { state with
    grants := state.grants.erase node
    notRun := state.notRun + state.tasksIn chunks
    attempts := chunks.iter.foldl (fun attempts chunk => attempts.erase chunk) state.attempts
    done := state.done.extendFrom chunks }

/-- Put the chunks taken from `node` back into the queue, each at its next attempt. -/
def returnToQueue (node : NodeId) (chunks : IndexRangeSet) : TaskArrayState :=
  { state with
    grants := state.grants.erase node
    attempts :=
      chunks.iter.foldl
        (fun attempts chunk =>
          attempts.insert chunk (saturatingAdd (attempts[chunk]?.getD 1) 1))
        state.attempts
    queued := state.queued.extendFrom chunks }

/-- Take back every chunk `node` holds. They return to the queue at the next attempt; once the
array has stopped they count as not run instead. Also returns the chunks taken back.
-/
def requeueNode (node : NodeId) : IndexRangeSet × TaskArrayState :=
  match state.grants[node]? with
  | none => (∅, state)
  | some chunks =>
    (chunks,
      if state.stopped.isSome then state.writeOff node chunks
      else state.returnToQueue node chunks)

def status : TaskArrayStatus :=
  let drained := state.queued.isEmpty && state.grants.isEmpty
  match state.stopped, drained with
  | some _, false => .stopping
  | some .cancelled, true => .cancelled
  | some .tooManyFailures, true => .failed
  | some .unrunnable, true => .failed
  | none, false => .running
  | none, true => if state.failed = 0 then .succeeded else .completedWithFailures

/-- Progress counts, computed from the chunk sets. -/
def summary : TaskArraySummary where
  total := state.spec.count
  succeeded := state.succeeded
  failed := state.failed
  notRun := state.notRun
  retried := state.retried
  retryCauses := state.retryCauses
  queued := state.tasksIn state.queued
  held := BTreeMap.total (fun _ chunks => state.tasksIn chunks) state.grants
  chunksDone := state.done.len
  status := state.status

end TaskArrayState

inductive ArrayOp where
  | grant (node : NodeId) (chunks : IndexRangeSet)
  | complete (node : NodeId) (result : ChunkResult)
  | requeueNode (node : NodeId)
  | cancel
  | refuseUnrunnable
deriving DecidableEq

namespace TaskArrayState

/-- The state after one call; a refused call leaves it as it was. -/
def step (state : TaskArrayState) : ArrayOp → TaskArrayState
  | .grant node chunks =>
    match state.grant node chunks with
    | .ok next => next
    | .error _ => state
  | .complete node result =>
    match state.complete node result with
    | .ok (_, next) => next
    | .error _ => state
  | .requeueNode node => (state.requeueNode node).2
  | .cancel => state.cancel
  | .refuseUnrunnable => state.refuseUnrunnable

def run (state : TaskArrayState) (ops : List ArrayOp) : TaskArrayState :=
  ops.foldl step state

/-- A state some sequence of calls leads to from a newly admitted array. -/
def Reachable (state : TaskArrayState) : Prop :=
  ∃ spec submitted initial ops, new spec submitted = .ok initial ∧ state = initial.run ops

-- Reopened snapshots

def validRanges (ranges : IndexRangeSet) (bound : Nat) : Bool :=
  ranges.ranges.all fun range => decide (range.2 < bound)

def addPart (chunks : Nat) (partition : IndexRangeSet × Nat) (ranges : IndexRangeSet)
    : Except String (IndexRangeSet × Nat) :=
  if !validRanges ranges chunks then .error "chunk progress exceeds the run"
  else
    match checkedAdd partition.2 ranges.len with
    | none => .error "chunk partition overflow"
    | some size => .ok (partition.1.extendFrom ranges, size)

variable (state : TaskArrayState)

/-- The sets that have to partition the chunks: queued, one grant per node, retired. -/
def parts : List IndexRangeSet :=
  state.queued :: (state.grants.toList.map Prod.snd ++ [state.done])

def checkPartition : Except String Unit :=
  let chunks := state.spec.chunkCount
  match state.parts.foldlM (addPart chunks) (∅, 0) with
  | .error refused => .error refused
  | .ok partition =>
    if partition.2 ≠ chunks ∨ partition.1.len ≠ partition.2 then
      .error "chunk partition is incomplete or overlaps"
    else .ok ()

def checkOwners : Except String Unit :=
  if (state.grants.keys ++ state.accepted.keys).any (fun node => !validNodeId node) then
    .error "invalid execution owner"
  else .ok ()

def checkAttempts : Except String Unit :=
  if state.attempts.toList.any (fun entry =>
      decide (entry.1 ≥ state.spec.chunkCount) || decide (entry.2 < 2)
        || state.done.contains entry.1) then
    .error "invalid grant attempt"
  else .ok ()

/-- Every accepted generation: the attempt and the chunks retired at it, by node and then the
folded ones.
-/
def acceptedGenerations : List (Nat × IndexRangeSet) :=
  (state.accepted.toList.flatMap fun entry => entry.2.toList) ++ state.acceptedFolded.toList

def addGeneration (done accepted : IndexRangeSet) (entry : Nat × IndexRangeSet)
    : Except String IndexRangeSet :=
  if entry.1 = 0 ∨ entry.2.isEmpty
      ∨ !entry.2.ranges.all (fun range => done.containsRange range.1 range.2) then
    .error "accepted grant has no retired progress"
  else
    let extended := accepted.extendFrom entry.2
    if extended.len ≠ accepted.len + entry.2.len then .error "accepted grants overlap"
    else .ok extended

def checkAccepted : Except String Unit :=
  match state.acceptedGenerations.foldlM (addGeneration state.done) ∅ with
  | .error refused => .error refused
  | .ok _ => .ok ()

def checkCounters : Except String Unit :=
  match (checkedAdd state.succeeded state.failed).bind (checkedAdd · state.notRun) with
  | none => .error "task counter overflow"
  | some accounted =>
    if accounted ≠ state.tasksIn state.done
        ∨ state.failedIndices.rangeCount > maxFailedRanges
        ∨ !validRanges state.failedIndices state.spec.count
        ∨ checkedAdd state.failedIndices.len state.failedOverflow ≠ some state.failed then
      .error "task counters disagree with retired chunks"
    else .ok ()

def checkDurations : Except String Unit :=
  if (state.durationCounts.toList.foldlM checkedAdd 0).all
      (fun count => decide (count > state.succeeded + state.failed)) then
    .error "duration counts exceed executed tasks"
  else if (state.recentDurationCounts.toList.zip state.durationCounts.toList).any
      (fun counts => decide (counts.1 > counts.2)) then
    .error "recent duration counts exceed all duration counts"
  else .ok ()

def checkStopped : Except String Unit :=
  if state.stopped.isSome ∧ !state.queued.isEmpty then .error "stopped run retains queued work"
  else .ok ()

def checkRetries : Except String Unit :=
  if state.retryCauses.total ≠ some state.retried then
    .error "retry causes disagree with the retry count"
  else .ok ()

/-- Refuse inconsistent progress before a reopened snapshot can authorise work. -/
def validateSnapshot : Except String Unit := do
  state.spec.validate.mapError TaskArraySpecError.text
  state.checkPartition
  state.checkOwners
  state.checkAttempts
  state.checkAccepted
  state.checkCounters
  state.checkDurations
  state.checkStopped
  state.checkRetries

end TaskArrayState

end Reliaburger
