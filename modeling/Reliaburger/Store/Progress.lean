import Reliaburger.Store.Types
import Reliaburger.TaskArray.Transitions

/-! Writes that move existing arrays along: reports and grants, stops, taken-back work, and the
terminal receipt each of them may leave.
-/

namespace Reliaburger

/-- Keep only the unknown owners that still hold chunks of the run. -/
def JobCatalog.retainUnknown (catalog : JobCatalog) (id : Nat) (state : TaskArrayState)
    : JobCatalog :=
  match catalog.runs[id]? with
  | none => catalog
  | some run =>
    catalog.recordRun id
      { run with
        unknownOwners := run.unknownOwners.filter (fun node => (state.heldBy node).isSome) }

namespace TaskArrayState

def accepts (state : TaskArrayState) : ArrayOp → Bool
  | .grant node chunks => (state.grant node chunks).isOk
  | .complete node result => (state.complete node result).isOk
  | _ => true

/-- Make the calls in order; the calls accepted and refused are counted. -/
def runCounting (state : TaskArrayState) : List ArrayOp → TaskArrayState × Nat × Nat
  | [] => (state, 0, 0)
  | op :: rest =>
    let (final, applied, refused) := (state.step op).runCounting rest
    if state.accepts op then (final, applied + 1, refused) else (final, applied, refused + 1)

end TaskArrayState

namespace TaskArrays

def outcomeOf (id : Nat) (record : TaskArrayRecord) (finished : Nat) : RunOutcome :=
  let summary := record.state.summary
  { run := id
    startedAtEpochSecs := record.state.submittedAtEpochSecs
    finishedAtEpochSecs := finished
    status := summary.status
    succeeded := summary.succeeded
    failed := summary.failed
    notRun := summary.notRun
    firstFailedIndex := record.state.failedIndices.ranges.head?.map Prod.fst }

/-- Whether the array has reached a terminal status that no receipt records yet. -/
def finishes (record : TaskArrayRecord) : Bool :=
  record.state.status.isTerminal && record.terminalAtEpochSecs.isNone

def finishTime (record : TaskArrayRecord) (nowEpochSecs : Nat) : Nat :=
  max nowEpochSecs record.state.submittedAtEpochSecs

def withReceipt (record : TaskArrayRecord) (nowEpochSecs : Nat) : TaskArrayRecord :=
  if finishes record then
    { record with
      terminalAtEpochSecs := some (finishTime record nowEpochSecs)
      quotaBlocked := none }
  else record

variable (store : TaskArrays)

/-- Only runs that a definition admitted leave their outcome in its history. -/
def rememberOutcome (id : Nat) (record : TaskArrayRecord) (nowEpochSecs : Nat) : JobCatalog :=
  if finishes record && store.jobs.runs.contains id then
    store.jobs.recordOutcome record.ns record.name
      (outcomeOf id record (finishTime record nowEpochSecs))
  else store.jobs

/-- Put an array's record back, with its terminal receipt once it has finished. -/
def settle (id : Nat) (record : TaskArrayRecord) (nowEpochSecs : Nat) : TaskArrays :=
  { store with
    arrays := store.arrays.insert id (withReceipt record nowEpochSecs)
    jobs := (store.rememberOutcome id record nowEpochSecs).retainUnknown id record.state }

/-- Change an array's record and mark its terminal transition if this made it. -/
def advance (id : Nat) (change : TaskArrayRecord → TaskArrayRecord) (nowEpochSecs : Nat)
    : Except TaskArrayStoreError TaskArrays :=
  match store.arrays[id]? with
  | none => .error (.unknownArray id)
  | some record => .ok (store.settle id (change record) nowEpochSecs)

def cancelRecord (record : TaskArrayRecord) : TaskArrayRecord :=
  { record with state := record.state.cancel }

def cancelAll (nowEpochSecs : Nat)
    : List Nat → TaskArrays → Except TaskArrayStoreError Unit × TaskArrays
  | [], store => (.ok (), store)
  | id :: rest, store =>
    match store.advance id cancelRecord nowEpochSecs with
    | .error refused => (.error refused, store)
    | .ok next => cancelAll nowEpochSecs rest next

-- Progress writes

/-- The calls a sync makes: finished chunks first, then new grants. -/
def syncOps (results : List (NodeId × ChunkResult)) (grants : List (NodeId × IndexRangeSet))
    : List ArrayOp × List ArrayOp :=
  (results.map (fun entry => .complete entry.1 entry.2),
    grants.map (fun entry => .grant entry.1 entry.2))

/-- Record finished chunks, then hand out new ones. Refused items are stale and skipped. -/
def sync (batchId : Nat) (results : List (NodeId × ChunkResult))
    (grants : List (NodeId × IndexRangeSet)) (nowEpochSecs : Nat)
    : Except TaskArrayStoreError (TaskArrayApplied × TaskArrays) :=
  match store.arrays[batchId]? with
  | none => .error (.unknownArray batchId)
  | some record =>
    let ops := syncOps results grants
    let (reported, resultsApplied, resultsRefused) := record.state.runCounting ops.1
    let (granted, grantsApplied, grantsRefused) := reported.runCounting ops.2
    .ok (.synced resultsApplied resultsRefused grantsApplied grantsRefused,
      store.settle batchId { record with state := granted } nowEpochSecs)

/-- Take back a lost node's chunks, unless the run wants its unknown outcomes acknowledged. -/
def requeue (batchId : Nat) (node : NodeId) (nowEpochSecs : Nat)
    : Except TaskArrayStoreError (TaskArrayApplied × TaskArrays) :=
  if store.jobs.runs[batchId]?.any (fun run => !run.replayUnknown) then
    .error (.refuse "unknown outcome requires acknowledged replay")
  else
    match store.arrays[batchId]? with
    | none => .error (.unknownArray batchId)
    | some record =>
      let (chunks, state) := record.state.requeueNode node
      .ok (.requeued chunks, store.settle batchId { record with state } nowEpochSecs)

/-- Retain a run's ownership when its outcome cannot be established. -/
def unknown (batchId : Nat) (node : NodeId)
    : Except TaskArrayStoreError (TaskArrayApplied × TaskArrays) :=
  match store.arrays[batchId]? with
  | none => .error (.unknownArray batchId)
  | some record =>
    if (record.state.heldBy node).isNone then
      .error (.refuse "unknown observation does not name a held grant")
    else
      match store.jobs.runs[batchId]? with
      | none => .error (.refuse "unknown run")
      | some run =>
        if run.unknownOwners.size ≥ 64 && !run.unknownOwners.contains node then
          .error (.refuse "unknown owner limit reached")
        else
          let noted := { run with unknownOwners := run.unknownOwners.insert node }
          .ok (.jobRecorded, { store with jobs := store.jobs.recordRun batchId noted })

/-- Fail an array no node can run. One that has already stopped is left as it is. -/
def refuseRecord (reason : String) (record : TaskArrayRecord) : TaskArrayRecord :=
  if record.state.stopped.isNone then
    { record with state := record.state.refuseUnrunnable, unrunnable := some reason }
  else record

def unrunnable (batchId : Nat) (reason : String) (nowEpochSecs : Nat)
    : Except TaskArrayStoreError (TaskArrayApplied × TaskArrays) :=
  if reason.utf8ByteSize > maxUnrunnableReasonBytes then
    .error (.refuse s!"an unrunnable reason is at most {maxUnrunnableReasonBytes} bytes")
  else
    (store.advance batchId (refuseRecord reason) nowEpochSecs).map (fun next => (.cancelled, next))

/-- Note why a run is granted nothing more, unless it has finished. -/
def quotaBlocked (store : TaskArrays) (batchId : Nat) (reason : Option QuotaError)
    : Except TaskArrayStoreError (TaskArrayApplied × TaskArrays) :=
  match store.arrays[batchId]? with
  | none => .error (.unknownArray batchId)
  | some record =>
    let noted :=
      { record with
        quotaBlocked := if record.state.status.isTerminal then none else reason }
    .ok (.quotaRecorded, { store with arrays := store.arrays.insert batchId noted })

def applyProgress : ProgressWrite → Except TaskArrayStoreError (TaskArrayApplied × TaskArrays)
  | .sync batchId results grants now => store.sync batchId results grants now
  | .requeue batchId node now => store.requeue batchId node now
  | .unknown batchId node => store.unknown batchId node
  | .unrunnable batchId reason now => store.unrunnable batchId reason now
  | .quotaBlocked batchId reason => store.quotaBlocked batchId reason

/-- Apply a tick's writes in order; a refused one leaves its array as it was. -/
def applyTick (store : TaskArrays)
    : List ProgressWrite → List (Nat × TaskArrayStoreError) × TaskArrays
  | [] => ([], store)
  | write :: rest =>
    match store.applyProgress write with
    | .ok (_, next) => applyTick next rest
    | .error refused =>
      let (later, final) := applyTick store rest
      ((write.batchId, refused) :: later, final)

/-- The unknown owner's outcome needs no more evidence. -/
def acknowledge (batchId : Nat) (run : RunRecord) (node : NodeId) : TaskArrays :=
  { store with
    jobs := store.jobs.recordRun batchId
      { run with unknownOwners := run.unknownOwners.erase node } }

/-- An operator acknowledged repeating an unknown owner's side effects: take its chunks back,
provided the acknowledgement names the exact chunk generations it holds. -/
def replay (P : Platform) (store : TaskArrays) (batchId : Nat) (node : NodeId)
    (grantDigest : String) (nowEpochSecs : Nat)
    : Except TaskArrayStoreError (TaskArrayApplied × TaskArrays) :=
  match store.jobs.runs[batchId]? with
  | none => .error (.refuse "unknown run")
  | some run =>
    if !run.unknownOwners.contains node then
      .error (.refuse "owner has no unresolved execution")
    else if store.ownerFingerprint P batchId node ≠ some grantDigest then
      .error (.refuse "replay acknowledgement names stale grants")
    else
      match store.arrays[batchId]? with
      | none => .error (.unknownArray batchId)
      | some record =>
        let (chunks, state) := record.state.requeueNode node
        .ok (.requeued chunks,
          (store.acknowledge batchId run node).settle batchId { record with state }
            nowEpochSecs)

end TaskArrays

-- Records put back

namespace TaskArrayState

theorem runCounting_fst (state : TaskArrayState) (ops : List ArrayOp)
    : (state.runCounting ops).1 = state.run ops := by
  induction ops generalizing state with
  | nil => rfl
  | cons op rest ih =>
    simp only [runCounting]
    split <;> simp only [run, List.foldl_cons] <;> exact ih (state.step op)

theorem run_append (state : TaskArrayState) (first second : List ArrayOp)
    : state.run (first ++ second) = (state.run first).run second :=
  List.foldl_append

end TaskArrayState

namespace TaskArrays

-- The record

section Receipt

variable (record : TaskArrayRecord) (now : Nat)

@[simp] theorem withReceipt_state : (withReceipt record now).state = record.state := by
  unfold withReceipt
  split <;> rfl

@[simp] theorem withReceipt_name : (withReceipt record now).name = record.name := by
  unfold withReceipt
  split <;> rfl

@[simp] theorem withReceipt_ns : (withReceipt record now).ns = record.ns := by
  unfold withReceipt
  split <;> rfl

@[simp] theorem withReceipt_template : (withReceipt record now).template = record.template := by
  unfold withReceipt
  split <;> rfl

/-- A record that had no receipt before it finished has one exactly when it has finished. -/
theorem withReceipt_terminal
    (earlier : record.terminalAtEpochSecs ≠ none → record.state.status.isTerminal = true)
    : (withReceipt record now).terminalAtEpochSecs.isSome = record.state.status.isTerminal := by
  unfold withReceipt finishes
  cases receipt : record.terminalAtEpochSecs with
  | none => cases terminal : record.state.status.isTerminal <;> simp [receipt]
  | some time =>
    have terminal := earlier (by simp [receipt])
    simp [receipt, terminal]

end Receipt

section Settle

variable (store : TaskArrays) (id : Nat) (record : TaskArrayRecord) (now : Nat)

theorem settle_arrays (other : Nat)
    : (store.settle id record now).arrays[other]?
      = if id = other then some (withReceipt record now) else store.arrays[other]? :=
  BTreeMap.get_insert _ _ _ _

@[simp] theorem rememberOutcome_runs
    : (store.rememberOutcome id record now).runs = store.jobs.runs := by
  unfold rememberOutcome
  split
  · unfold JobCatalog.recordOutcome JobCatalog.modify
    split <;> rfl
  · rfl

/-- Only the unknown owners of the array's own run can change, and only by removal. -/
theorem settle_runs (other : Nat)
    : (store.settle id record now).jobs.runs[other]?
      = if id = other then
          store.jobs.runs[id]?.map (fun run =>
            { run with
              unknownOwners :=
                run.unknownOwners.filter (fun node => (record.state.heldBy node).isSome) })
        else store.jobs.runs[other]? := by
  simp only [settle, JobCatalog.retainUnknown, rememberOutcome_runs]
  cases found : store.jobs.runs[id]? with
  | none =>
    simp only [rememberOutcome_runs, Option.map_none]
    split
    · rename_i same
      rw [← same, found]
    · rfl
  | some run => simp only [JobCatalog.recordRun, rememberOutcome_runs, BTreeMap.get_insert,
      Option.map_some]

end Settle

end TaskArrays

end Reliaburger
