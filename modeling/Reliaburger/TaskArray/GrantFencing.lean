import Reliaburger.TaskArray.Accounting

/-! At-most-once accounting of chunks. A sequence of calls is a run of the fenced queue whose
fences count the requeues of each chunk, so the queue's results about leases and settlements
are results about grants and applied reports.
-/

namespace Reliaburger

open FencedQueue (Place Action)

namespace TaskArrayState

-- Calls as actions of the queue

/-- What a call does to the queue of chunks. -/
def actionOf (state : TaskArrayState) : ArrayOp → Action Nat NodeId
  | .grant node chunks =>
    match state.grant node chunks with
    | .ok _ => .lease node chunks.toFinset
    | .error _ => .skip
  | .complete node result =>
    match state.complete node result with
    | .ok (.applied, next) => .settle node result.chunk next.stopped.isSome
    | .ok (.duplicate, _) | .error _ => .skip
  | .requeueNode node => if state.stopped.isSome then .abandon node else .reclaim node
  | .cancel | .refuseUnrunnable => .close

variable {queue : FencedQueue.State Nat NodeId} {state : TaskArrayState} {node : NodeId}

/-- The queue shows the state, and every chunk that is not retired is on the attempt after its
fence.
-/
structure Mirrors (queue : FencedQueue.State Nat NodeId) (state : TaskArrayState) : Prop where
  shown : Shows queue state
  closed : state.QueueClosed
  fenced
    : ∀ chunk < state.spec.chunkCount,
        queue.place chunk ≠ .closed → state.attemptOf chunk = queue.fence chunk + 1

namespace Mirrors

variable {next : TaskArrayState} {queue' : FencedQueue.State Nat NodeId} {chunks : IndexRangeSet}
  {result : ChunkResult} {held : IndexRangeSet}

section

variable (mirrors : Mirrors queue state)
include mirrors

/-- An action that changes nothing within the array. -/
theorem idle (same : ∀ chunk < state.spec.chunkCount,
      queue'.place chunk = queue.place chunk ∧ queue'.fence chunk = queue.fence chunk)
    : Mirrors queue' state where
  shown chunk place := (mirrors.shown chunk place).trans (and_congr_right fun inside => by
    rw [(same chunk inside).1])
  closed := mirrors.closed
  fenced chunk inside live := by
    obtain ⟨places, fences⟩ := same chunk inside
    rw [places] at live
    rw [fences]
    exact mirrors.fenced chunk inside live

/-- A move after which the live chunks were live before, at the attempt after their fence. -/
theorem move (move : Move state next) (shown : Shows queue' next)
    (kept : ∀ chunk < state.spec.chunkCount, queue'.place chunk ≠ .closed
      → queue.place chunk ≠ .closed
        ∧ (state.attemptOf chunk = queue.fence chunk + 1
          → next.attemptOf chunk = queue'.fence chunk + 1))
    : Mirrors queue' next := by
  refine ⟨shown, move.queueClosed mirrors.closed, fun chunk inside live => ?_⟩
  rw [move.spec] at inside
  obtain ⟨before, attempt⟩ := kept chunk inside live
  exact attempt (mirrors.fenced chunk inside before)

/-- Stopping closes the queue, whether or not the array had stopped before. -/
theorem stop (reason : StopReason)
    : Mirrors (FencedQueue.next queue .close) (state.stop reason) := by
  by_cases running : state.stopped = none
  · refine mirrors.move (.stop reason running) (shows_stop mirrors.shown reason running) ?_
    intro chunk inside live
    by_cases queued : queue.place chunk = .queued
    · simp [FencedQueue.next, FencedQueue.nextPlace, queued] at live
    have kept : state.queued.contains chunk = false :=
      IndexRangeSet.contains_eq_false_iff.mpr fun member =>
        queued (mirrors.shown.place (show state.Placed chunk .queued from member))
    refine ⟨by simpa [FencedQueue.next, FencedQueue.nextPlace, queued] using live,
      fun attempt => Eq.trans ?_ attempt⟩
    simp only [attemptOf, TaskArrayState.stop, running, Option.isSome_none, Bool.false_eq_true,
      if_false, BTreeMap.get_filter]
    cases state.attempts[chunk]? with
    | none => rfl
    | some attempt => simp [Option.filter, kept]
  · rw [stop_of_stopped reason running]
    refine mirrors.idle fun chunk inside => ⟨?_, rfl⟩
    have notQueued : queue.place chunk ≠ .queued := fun queued =>
      mirrors.closed running chunk ((mirrors.shown chunk .queued).mpr ⟨inside, queued⟩)
    simp [FencedQueue.next, FencedQueue.nextPlace, notQueued]

/-- An accepted report settles its chunk, and closes the queue if the array is then stopped. -/
theorem accept (accepts : state.Accepts node result held)
    : Mirrors
        (FencedQueue.next queue
          (.settle node result.chunk (state.accept node result).stopped.isSome))
        (state.accept node result) := by
  have tallied : Mirrors (FencedQueue.next queue (.settle node result.chunk false))
      (state.tally node result) := by
    refine mirrors.move (.tally accepts) (shows_tally mirrors.shown accepts) fun chunk _ live => ?_
    by_cases settled : chunk = result.chunk
    · simp [FencedQueue.next, FencedQueue.nextPlace, settled] at live
    refine ⟨by simpa [FencedQueue.next, FencedQueue.nextPlace, settled] using live, ?_⟩
    rw [attemptOf, attemptOf, tally_attempts, BTreeMap.get_erase_ne _ (Ne.symm settled)]
    exact id
  rcases stopWhenFailed_cases (state.tally node result) with same | stops
  · rw [TaskArrayState.accept, same]
    cases stopped : (state.tally node result).stopped with
    | none => exact tallied
    | some reason =>
      -- The array had stopped before, so stopping it again changes nothing.
      have again := tallied.stop reason
      rw [stop_of_stopped reason (stopped ▸ Option.some_ne_none reason)] at again
      rwa [Option.isSome_some, FencedQueue.next_settle_closing]
  · rw [TaskArrayState.accept, stops, stopped_stop, FencedQueue.next_settle_closing]
    exact tallied.stop _

theorem handOut (owner : validNodeId node = true)
    (running : state.stopped = none) (queued : ∀ chunk ∈ chunks, chunk ∈ state.queued)
    (some : ∃ chunk, chunk ∈ chunks)
    : Mirrors (FencedQueue.next queue (.lease node chunks.toFinset))
        (state.handOut node chunks) := by
  refine mirrors.move (.handOut owner running queued some) (shows_handOut mirrors.shown queued)
    fun chunk _ live => ⟨?_, id⟩
  by_cases member : chunk ∈ chunks
  · rw [mirrors.shown.place (show state.Placed chunk .queued from queued chunk member)]
    exact nofun
  · simpa [FencedQueue.next, FencedQueue.nextPlace, member] using live

/-- A node without a grant has nothing taken back. -/
theorem ungranted (absent : state.grants[node]? = none)
    : Mirrors (FencedQueue.next queue (.abandon node)) state
      ∧ Mirrors (FencedQueue.next queue (.reclaim node)) state := by
  have notHeld : ∀ chunk < state.spec.chunkCount, queue.place chunk ≠ .held node := by
    intro chunk inside held
    obtain ⟨_, holds, _⟩ := (mirrors.shown chunk (.held node)).mpr ⟨inside, held⟩
    simp [absent] at holds
  constructor <;> refine mirrors.idle fun chunk inside => ?_ <;>
    simp [FencedQueue.next, FencedQueue.nextPlace, FencedQueue.nextFence, notHeld chunk inside]

theorem writeOff (holds : state.grants[node]? = some chunks)
    (stopped : state.stopped ≠ none)
    : Mirrors (FencedQueue.next queue (.abandon node)) (state.writeOff node chunks) := by
  refine mirrors.move (.writeOff holds stopped) (shows_writeOff mirrors.shown holds)
    fun chunk _ live => ?_
  by_cases isHeld : queue.place chunk = .held node
  · simp [FencedQueue.next, FencedQueue.nextPlace, isHeld] at live
  have elsewhere : chunk ∉ chunks.iter := fun member =>
    isHeld (mirrors.shown.place ⟨chunks, holds, IndexRangeSet.mem_iter.mp member⟩)
  refine ⟨by simpa [FencedQueue.next, FencedQueue.nextPlace, isHeld] using live, ?_⟩
  rw [attemptOf, attemptOf, TaskArrayState.writeOff, get_foldl_erase, if_neg elsewhere]
  exact id

theorem returnToQueue (holds : state.grants[node]? = some chunks)
    (running : state.stopped = none) (small : ∀ chunk < state.spec.chunkCount,
      (FencedQueue.next queue (.reclaim node)).fence chunk + 1 < u64Size)
    : Mirrors (FencedQueue.next queue (.reclaim node)) (state.returnToQueue node chunks) := by
  refine mirrors.move (.returnToQueue holds running) (shows_returnToQueue mirrors.shown holds)
    fun chunk inside live => ?_
  have bound := small chunk inside
  have member : chunk ∈ chunks ↔ queue.place chunk = .held node := by
    simpa [Placed, holds, inside] using mirrors.shown chunk (.held node)
  simp only [attemptOf, TaskArrayState.returnToQueue, get_foldl_raise _ chunks.nodup_iter,
    IndexRangeSet.mem_iter, member]
  by_cases isHeld : queue.place chunk = .held node
  · refine ⟨by simp [isHeld], fun attempt => ?_⟩
    simp only [FencedQueue.next, FencedQueue.nextFence, isHeld, if_true] at bound ⊢
    rw [Option.getD_some, attempt, saturatingAdd]
    omega
  · refine ⟨by simpa [FencedQueue.next, FencedQueue.nextPlace, isHeld] using live, ?_⟩
    simp [FencedQueue.next, FencedQueue.nextFence, isHeld]

/-- Every call is allowed as an action of the queue and leads to the queue after it, as long as
no attempt saturates.
-/
theorem step (op : ArrayOp)
    (small : ∀ chunk < state.spec.chunkCount,
      (FencedQueue.next queue (state.actionOf op)).fence chunk + 1 < u64Size)
    : FencedQueue.Allowed queue (state.actionOf op)
      ∧ Mirrors (FencedQueue.next queue (state.actionOf op)) (state.step op) := by
  cases op with
  | grant node chunks =>
    simp only [actionOf, TaskArrayState.step]
    cases granted : state.grant node chunks with
    | error refused => exact ⟨trivial, mirrors⟩
    | ok next =>
      obtain ⟨owner, running, queued, same | moved⟩ := grant_ok granted
      · obtain ⟨empty, rfl⟩ := same
        have none : chunks.toFinset = ∅ := by
          ext chunk
          simp [empty chunk]
        rw [none]
        exact ⟨by simp [FencedQueue.Allowed], mirrors.idle fun _ _ => ⟨rfl, rfl⟩⟩
      · obtain ⟨some, rfl⟩ := moved
        refine ⟨fun chunk member => ?_, mirrors.handOut owner running queued some⟩
        exact mirrors.shown.place
          (show state.Placed chunk .queued from queued chunk (by simpa using member))
  | complete node result =>
    simp only [actionOf, TaskArrayState.step]
    cases completed : state.complete node result with
    | error refused => exact ⟨trivial, mirrors⟩
    | ok answer =>
      obtain ⟨_, _⟩ := answer
      rcases complete_ok completed with ⟨rfl, rfl⟩ | ⟨rfl, ⟨held, accepts⟩, rfl⟩
      · exact ⟨trivial, mirrors⟩
      · refine ⟨mirrors.shown.place ?_, mirrors.accept accepts⟩
        exact ⟨held, accepts.holds, accepts.member⟩
  | requeueNode node =>
    simp only [actionOf] at small
    simp only [actionOf, TaskArrayState.step, requeueNode]
    cases stopped : state.stopped with
    | some reason =>
      refine ⟨trivial, ?_⟩
      cases holds : state.grants[node]? with
      | none => exact (mirrors.ungranted holds).1
      | some chunks => exact mirrors.writeOff holds (by simp [stopped])
    | none =>
      refine ⟨trivial, ?_⟩
      rw [stopped] at small
      cases holds : state.grants[node]? with
      | none => exact (mirrors.ungranted holds).2
      | some chunks => exact mirrors.returnToQueue holds stopped small
  | cancel => exact ⟨trivial, mirrors.stop _⟩
  | refuseUnrunnable => exact ⟨trivial, mirrors.stop _⟩

end

end Mirrors

/-- Only an accepted grant leases chunks. -/
theorem actionOf_eq_lease {op : ArrayOp} {items : Finset Nat}
    (leases : state.actionOf op = .lease node items)
    : ∃ chunks next,
        op = .grant node chunks
        ∧ state.grant node chunks = .ok next
        ∧ items = chunks.toFinset := by
  cases op with
  | grant other chunks =>
    simp only [actionOf] at leases
    cases granted : state.grant other chunks with
    | error refused => simp [granted] at leases
    | ok next =>
      simp only [granted, Action.lease.injEq] at leases
      obtain ⟨rfl, rfl⟩ := leases
      exact ⟨chunks, next, rfl, granted, rfl⟩
  | complete other result =>
    simp only [actionOf] at leases
    split at leases <;> cases leases
  | requeueNode other =>
    simp only [actionOf] at leases
    split at leases <;> cases leases
  | cancel => cases leases
  | refuseUnrunnable => cases leases

/-- Whether the call puts the chunk back into the queue. -/
def requeues (state : TaskArrayState) (op : ArrayOp) (chunk : Nat) : Bool :=
  match op with
  | .requeueNode node => state.stopped.isNone && (state.requeueNode node).1.contains chunk
  | .grant _ _ | .complete _ _ | .cancel | .refuseUnrunnable => false

/-- A call raises a chunk's fence exactly if it puts the chunk back into the queue. -/
theorem nextFence_actionOf (shows' : Shows queue state) (op : ArrayOp) {chunk : Nat}
    (inside : chunk < state.spec.chunkCount)
    : FencedQueue.nextFence queue (state.actionOf op) chunk
      = queue.fence chunk + (state.requeues op chunk).toNat := by
  cases op with
  | grant node chunks =>
    simp only [actionOf]
    split <;> rfl
  | complete node result =>
    simp only [actionOf]
    split <;> rfl
  | requeueNode node =>
    have held := shows' chunk (.held node)
    simp only [Placed, inside, true_and] at held
    simp only [actionOf, requeues, requeueNode]
    cases state.stopped with
    | some reason => simp [FencedQueue.nextFence]
    | none =>
      simp only [FencedQueue.nextFence, Option.isSome_none, Bool.false_eq_true, if_false,
        Option.isNone_none, Bool.true_and, ← held]
      cases holds : state.grants[node]? with
      | none => simp
      | some chunks =>
        by_cases member : chunk ∈ chunks
        · have present : chunks.contains chunk = true := by simpa using member
          simp [member, present]
        · have absent : chunks.contains chunk = false := by simpa using member
          simp [member, absent]
  | cancel => rfl
  | refuseUnrunnable => rfl

-- Runs

section

variable (initial : TaskArrayState) (ops : List ArrayOp)

/-- The state before call number `time`, and after the last call from then on. -/
def stateAt (time : Nat) : TaskArrayState :=
  initial.run (ops.take time)

/-- Call number `time` hands the chunk to the node, at this attempt. -/
def GrantedAt (time : Nat) (node : NodeId) (chunk attempt : Nat) : Prop :=
  ∃ chunks next,
    ops[time]? = some (.grant node chunks)
    ∧ (initial.stateAt ops time).grant node chunks = .ok next
    ∧ chunk ∈ chunks
    ∧ (initial.stateAt ops time).attemptOf chunk = attempt

/-- Call number `time` is a report by the node that is counted for the chunk, at this attempt.
-/
def AppliedAt (time : Nat) (node : NodeId) (chunk attempt : Nat) : Prop :=
  ∃ result next,
    ops[time]? = some (.complete node result)
    ∧ (initial.stateAt ops time).complete node result = .ok (.applied, next)
    ∧ result.chunk = chunk
    ∧ result.attempt = attempt

/-- Call number `time` takes the chunk back from the node, which held it at this attempt. -/
def TakenBackAt (time : Nat) (node : NodeId) (chunk attempt : Nat) : Prop :=
  ops[time]? = some (.requeueNode node)
    ∧ chunk ∈ ((initial.stateAt ops time).requeueNode node).1
    ∧ (initial.stateAt ops time).attemptOf chunk = attempt

/-- Whether call number `time` puts the chunk back into the queue. -/
def requeuedAt (time chunk : Nat) : Bool :=
  ops[time]?.any fun op => (initial.stateAt ops time).requeues op chunk

/-- How often the first `time` calls put the chunk back into the queue. -/
def requeuesBefore (time chunk : Nat) : Nat :=
  (List.range time).countP (initial.requeuedAt ops · chunk)

/-- What call number `time` does to the queue; nothing after the last call. -/
def actionAt (time : Nat) : Action Nat NodeId :=
  ops[time]?.elim .skip (initial.stateAt ops time).actionOf

def queueAt : Nat → FencedQueue.State Nat NodeId
  | 0 => ⟨fun _ => .queued, fun _ => 0⟩
  | time + 1 => FencedQueue.next (queueAt time) (initial.actionAt ops time)

theorem stateAt_succ (time : Nat)
    : initial.stateAt ops (time + 1)
      = ops[time]?.elim (initial.stateAt ops time) (initial.stateAt ops time).step := by
  simp only [stateAt, run, List.take_add_one, List.foldl_append]
  cases ops[time]? with
  | none => rfl
  | some op => rfl

theorem requeuesBefore_succ (time chunk : Nat)
    : initial.requeuesBefore ops (time + 1) chunk
      = initial.requeuesBefore ops time chunk
        + (initial.requeuedAt ops time chunk).toNat := by
  simp only [requeuesBefore, List.range_succ, List.countP_append, List.countP_singleton]
  cases initial.requeuedAt ops time chunk with
  | true => rfl
  | false => rfl

/-- The queue mirrors the state at this time, and the fences count the requeues. -/
structure Agree (time : Nat) : Prop where
  mirrors : Mirrors (initial.queueAt ops time) (initial.stateAt ops time)
  fences
    : ∀ chunk < initial.spec.chunkCount,
        (initial.queueAt ops time).fence chunk = initial.requeuesBefore ops time chunk

variable {initial ops}

theorem spec_stateAt (time : Nat) : (initial.stateAt ops time).spec = initial.spec :=
  spec_run initial (ops.take time)

/-- The queue keeps up with the calls, by induction on time, while no chunk's requeues reach
the attempt counter's limit.
-/
theorem agree {spec : TaskArraySpec} {submitted : Nat}
    (created : new spec submitted = .ok initial)
    (few : ∀ time chunk, initial.requeuesBefore ops time chunk ≤ 2 ^ 64 - 3) (time : Nat)
    : Agree initial ops time
      ∧ FencedQueue.Allowed (initial.queueAt ops time) (initial.actionAt ops time) := by
  have fences (time) (agrees : Agree initial ops time)
      : ∀ chunk < initial.spec.chunkCount,
          (initial.queueAt ops (time + 1)).fence chunk
            = initial.requeuesBefore ops (time + 1) chunk := by
    intro chunk inside
    rw [requeuesBefore_succ, ← agrees.fences chunk inside]
    simp only [queueAt, FencedQueue.next, actionAt, requeuedAt]
    rw [← @spec_stateAt initial ops time] at inside
    cases ops[time]? with
    | none => rfl
    | some op => exact nextFence_actionOf agrees.mirrors.shown op inside
  have allowed (time) (agrees : Agree initial ops time)
      : FencedQueue.Allowed (initial.queueAt ops time) (initial.actionAt ops time)
        ∧ Mirrors (initial.queueAt ops (time + 1)) (initial.stateAt ops (time + 1)) := by
    have small : ∀ chunk < (initial.stateAt ops time).spec.chunkCount,
        (initial.queueAt ops (time + 1)).fence chunk + 1 < u64Size := by
      intro chunk inside
      have bound := few (time + 1) chunk
      rw [spec_stateAt] at inside
      rw [fences time agrees chunk inside, u64Size]
      omega
    simp only [stateAt_succ, queueAt, actionAt] at small ⊢
    cases called : ops[time]? with
    | none => exact ⟨trivial, agrees.mirrors.idle fun _ _ => ⟨rfl, rfl⟩⟩
    | some op =>
      rw [called] at small
      exact agrees.mirrors.step op small
  suffices agrees : Agree initial ops time from ⟨agrees, (allowed time agrees).1⟩
  induction time with
  | zero =>
    refine ⟨⟨shows_new created fun _ => rfl, (reachable_run created []).queueClosed, ?_⟩,
      fun _ _ => rfl⟩
    unfold new at created
    split at created
    · cases created
    cases created
    intro chunk _ _
    simp [stateAt, run, attemptOf, queueAt]
  | succ time ih => exact ⟨(allowed time ih).2, fences time ih⟩

def queueRun {spec : TaskArraySpec} {submitted : Nat}
    (created : new spec submitted = .ok initial)
    (few : ∀ time chunk, initial.requeuesBefore ops time chunk ≤ 2 ^ 64 - 3)
    : FencedQueue.Run Nat NodeId where
  state := initial.queueAt ops
  action := initial.actionAt ops
  initial := fun _ => rfl
  allowed := fun time => (agree created few time).2
  step := fun _ => rfl

section

variable {spec : TaskArraySpec} {submitted : Nat} (created : new spec submitted = .ok initial)
  (few : ∀ time chunk, initial.requeuesBefore ops time chunk ≤ 2 ^ 64 - 3)

include created few in
/-- A chunk that is not retired is on the attempt after its fence. -/
private theorem attempt_of_live {time chunk : Nat} {place : Place NodeId}
    (placed : (initial.stateAt ops time).Placed chunk place) (live : place ≠ .closed)
    : (initial.stateAt ops time).attemptOf chunk
      = (initial.queueAt ops time).fence chunk + 1 := by
  have mirrors := (agree created few time).1.mirrors
  apply mirrors.fenced chunk (mirrors.shown.inside placed)
  rw [mirrors.shown.place placed]
  exact live

/-- A grant of a chunk is a lease at the fence below its attempt, and the other way round. -/
theorem grantedAt_iff {time : Nat} {node : NodeId} {chunk fence : Nat}
    : initial.GrantedAt ops time node chunk (fence + 1)
      ↔ (queueRun created few).Leased time node chunk fence := by
  have attempt (placed : (initial.stateAt ops time).Placed chunk .queued)
      : (initial.stateAt ops time).attemptOf chunk
        = (initial.queueAt ops time).fence chunk + 1 :=
    attempt_of_live created few placed nofun
  constructor
  · rintro ⟨chunks, next, called, granted, member, at_⟩
    obtain ⟨_, _, queued, _⟩ := grant_ok granted
    rw [attempt (queued chunk member)] at at_
    refine ⟨chunks.toFinset, ?_, by simpa using member, Nat.succ_injective at_⟩
    change initial.actionAt ops time = _
    simp [actionAt, called, actionOf, granted]
  · rintro ⟨_, action, member, same⟩
    change initial.actionAt ops time = _ at action
    change (initial.queueAt ops time).fence chunk = fence at same
    rcases Option.eq_none_or_eq_some ops[time]? with called | ⟨_, called⟩
    · simp [actionAt, called] at action
    simp only [actionAt, called, Option.elim_some] at action
    obtain ⟨chunks, next, rfl, granted, rfl⟩ := actionOf_eq_lease action
    obtain ⟨_, _, queued, _⟩ := grant_ok granted
    have member' : chunk ∈ chunks := by simpa using member
    exact ⟨chunks, next, called, granted, member', by rw [attempt (queued chunk member'), same]⟩

/-- A counted report settles its chunk, at the fence below its attempt. -/
theorem AppliedAt.settled {time : Nat} {node : NodeId} {chunk attempt : Nat}
    (applied : initial.AppliedAt ops time node chunk attempt)
    : ∃ fence, attempt = fence + 1
        ∧ (queueRun created few).Settled time node chunk fence := by
  obtain ⟨result, next, called, completed, rfl, rfl⟩ := applied
  rcases complete_ok completed with ⟨repeated, _⟩ | ⟨_, ⟨held, accepts⟩, _⟩
  · cases repeated
  refine ⟨(initial.queueAt ops time).fence result.chunk, ?_, ⟨next.stopped.isSome, ?_⟩, rfl⟩
  · rw [accepts.attempt]
    exact attempt_of_live created few
      (show (initial.stateAt ops time).Placed _ (.held node) from
        ⟨held, accepts.holds, accepts.member⟩) nofun
  · change initial.actionAt ops time = _
    simp [actionAt, called, actionOf, completed]

/-- Taking a chunk back ends its lease, at the fence below its attempt. -/
theorem TakenBackAt.takenBack {time : Nat} {node : NodeId} {chunk attempt : Nat}
    (taken : initial.TakenBackAt ops time node chunk attempt)
    : ∃ fence, attempt = fence + 1
        ∧ (queueRun created few).TakenBack time node chunk fence := by
  obtain ⟨called, member, rfl⟩ := taken
  have placed : (initial.stateAt ops time).Placed chunk (.held node) := by
    simp only [requeueNode] at member
    cases holds : (initial.stateAt ops time).grants[node]? with
    | none => simp [holds] at member
    | some chunks => exact ⟨chunks, holds, by simpa [holds] using member⟩
  refine ⟨(initial.queueAt ops time).fence chunk, attempt_of_live created few placed (by simp),
    ?_, (agree created few time).1.mirrors.shown.place placed, rfl⟩
  change initial.actionAt ops time = _ ∨ initial.actionAt ops time = _
  simp only [actionAt, called, Option.elim_some, actionOf]
  cases (initial.stateAt ops time).stopped.isSome with
  | true => exact Or.inr rfl
  | false => exact Or.inl rfl

end

end

/-- In every run of calls that requeues no chunk so often that its attempt number saturates, a
chunk is granted at each attempt to at most one node and once, at most one report of it is
counted, that report comes from the node granted the chunk at the reported attempt, and no
report for a grant that was taken back is ever counted.
-/
theorem grants_are_fenced {spec : TaskArraySpec} {submitted : Nat} {initial : TaskArrayState}
    (created : new spec submitted = .ok initial) (ops : List ArrayOp)
    (few : ∀ time chunk, initial.requeuesBefore ops time chunk ≤ 2 ^ 64 - 3)
    : (∀ time time' node node' chunk attempt,
        initial.GrantedAt ops time node chunk attempt
        → initial.GrantedAt ops time' node' chunk attempt
        → time = time' ∧ node = node')
      ∧ (∀ time time' node node' chunk attempt attempt',
          initial.AppliedAt ops time node chunk attempt
          → initial.AppliedAt ops time' node' chunk attempt'
          → time = time')
      ∧ (∀ time node chunk attempt,
          initial.AppliedAt ops time node chunk attempt
          → ∃ earlier < time, initial.GrantedAt ops earlier node chunk attempt)
      ∧ (∀ time time' node node' chunk attempt,
          initial.TakenBackAt ops time node chunk attempt
          → ¬ initial.AppliedAt ops time' node' chunk attempt) := by
  refine ⟨?_, ?_, ?_, ?_⟩
  · intro time time' node node' chunk attempt first second
    cases attempt with
    | zero =>
      -- Attempt numbers start at one: no grant is made at attempt zero.
      obtain ⟨_, _, _, granted, member, _⟩ := first
      obtain ⟨_, _, queued, _⟩ := grant_ok granted
      have placed : (initial.stateAt ops time).Placed chunk .queued := queued chunk member
      have attempt := attempt_of_live created few placed nofun
      omega
    | succ fence =>
      exact ((grantedAt_iff created few).mp first).unique
        ((grantedAt_iff created few).mp second)
  · intro time time' node node' chunk attempt attempt' first second
    obtain ⟨_, _, settled⟩ := first.settled created few
    obtain ⟨_, _, settled'⟩ := second.settled created few
    exact settled.unique settled'
  · intro time node chunk attempt applied
    obtain ⟨fence, rfl, settled⟩ := applied.settled created few
    obtain ⟨earlier, order, leased⟩ := settled.leased
    exact ⟨earlier, order, (grantedAt_iff created few).mpr leased⟩
  · intro time time' node node' chunk attempt taken applied
    obtain ⟨fence, rfl, takenBack⟩ := taken.takenBack created few
    obtain ⟨fence', same, settled⟩ := applied.settled created few
    obtain rfl : fence = fence' := Nat.succ_injective same
    exact takenBack.not_settled settled

/-- No chunk is requeued more often than there are calls, by induction on time. -/
theorem requeuesBefore_le (initial : TaskArrayState) (ops : List ArrayOp) (time chunk : Nat)
    : initial.requeuesBefore ops time chunk ≤ min time ops.length := by
  induction time with
  | zero => simp [requeuesBefore]
  | succ time ih =>
    rw [requeuesBefore_succ]
    have once := Bool.toNat_le (initial.requeuedAt ops time chunk)
    by_cases called : time < ops.length
    · omega
    have idle : initial.requeuedAt ops time chunk = false := by
      simp [requeuedAt, List.getElem?_eq_none (Nat.le_of_not_lt called)]
    rw [idle]
    simp only [Bool.toNat_false]
    omega

instance : NeZero (2 ^ 32) := ⟨by decide⟩

def successReport (chunk attempt : Nat) (tasks : Fin (2 ^ 32)) : ChunkResult where
  durationCounts := Vector.replicate 16 0
  chunk := chunk
  attempt := attempt
  succeeded := tasks
  failedCount := 0
  failedIndices := ∅
  notRun := 0
  retried := 0
  retryCauses := {}
  durationCounts_lt := by decide
  succeeded_lt := tasks.isLt
  failedCount_lt := by decide
  notRun_lt := by decide
  retried_lt := by decide

/-- A node is lost, its chunk goes to a second node, and both then report it. -/
def lateReport : List ArrayOp :=
  [.grant "node-a" (.fromRange 0 0), .requeueNode "node-a", .grant "node-b" (.fromRange 0 0),
    .complete "node-a" (successReport 0 1 1), .complete "node-b" (successReport 0 2 1)]

/-- The second node's report is counted; nothing is ever counted for the first grant. -/
theorem lateReport_is_fenced
    : ∃ initial,
        new (.withCount 1) 0 = .ok initial
        ∧ initial.TakenBackAt lateReport 1 "node-a" 0 1
        ∧ initial.AppliedAt lateReport 4 "node-b" 0 2
        ∧ ∀ time node, ¬ initial.AppliedAt lateReport time node 0 1 := by
  have created : new (.withCount 1) 0 = .ok _ := rfl
  refine ⟨_, created, ?_, ?_, ?_⟩
  · exact ⟨rfl, by decide +kernel, by decide +kernel⟩
  · exact ⟨successReport 0 2 1, _, rfl, rfl, rfl, rfl⟩
  · intro time node
    refine (grants_are_fenced created lateReport ?_).2.2.2 1 time "node-a" node 0 1 ?_
    · intro time chunk
      exact (requeuesBefore_le _ lateReport time chunk).trans (by simp [lateReport])
    · exact ⟨rfl, by decide +kernel, by decide +kernel⟩

end TaskArrayState

end Reliaburger
