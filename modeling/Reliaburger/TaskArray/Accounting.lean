import Reliaburger.Library.FencedQueue
import Reliaburger.TaskArray.Transitions

/-! A task array is a fenced queue of chunks: every call is one action of the queue, and the
chunk sets show where the queue has each chunk. So no chunk and no task is lost or counted twice:
the places of the chunks, and the counters, account for every task of the submission.
-/

namespace Reliaburger

open BTreeMap

open FencedQueue (Place Action)

namespace TaskArrayState

-- What a move changes

section

variable (state : TaskArrayState) (node : NodeId) (result : ChunkResult)

@[simp] theorem tally_spec : (state.tally node result).spec = state.spec := rfl

@[simp] theorem tally_queued : (state.tally node result).queued = state.queued := rfl

@[simp] theorem tally_grants
    : (state.tally node result).grants = releaseGrant state.grants node result.chunk := rfl

@[simp] theorem tally_attempts
    : (state.tally node result).attempts = state.attempts.erase result.chunk := rfl

@[simp] theorem tally_done : (state.tally node result).done = state.done.insert result.chunk := rfl

end

variable {node : NodeId} {next state : TaskArrayState} {chunk : Nat}
  {queue : FencedQueue.State Nat NodeId} {chunks : IndexRangeSet}

/-- Releasing a chunk takes it out of its node's grant and leaves the other grants alone. -/
theorem get_releaseGrant {grants : BTreeMap NodeId IndexRangeSet} {held : IndexRangeSet}
    (holds : grants[node]? = some held) (chunk : Nat) (other : NodeId)
    : (releaseGrant grants node chunk)[other]?
      = if node = other then
          if (held.remove chunk).isEmpty then none else some (held.remove chunk)
        else grants[other]? := by
  simp only [releaseGrant, holds]
  split
  · rw [get_erase]
  · rw [get_insert]

/-- Erasing the attempts of some chunks leaves those of the others, by induction on the list.
-/
theorem get_foldl_erase (chunks : List Nat) (attempts : BTreeMap Nat Nat) (chunk : Nat)
    : (chunks.foldl (fun attempts chunk => attempts.erase chunk) attempts)[chunk]?
      = if chunk ∈ chunks then none else attempts[chunk]? := by
  induction chunks generalizing attempts with
  | nil => simp
  | cons head rest ih =>
    rw [List.foldl_cons, ih, get_erase]
    by_cases later : chunk ∈ rest
    · simp [later]
    · simp [later, eq_comm]

/-- Raising the attempts of distinct chunks raises each of them once and no other, by induction
on the list.
-/
theorem get_foldl_raise (chunks : List Nat) (nodup : chunks.Nodup) (attempts : BTreeMap Nat Nat)
    (chunk : Nat)
    : (chunks.foldl
        (fun attempts chunk =>
          attempts.insert chunk (saturatingAdd (attempts[chunk]?.getD 1) 1))
        attempts)[chunk]?
      = if chunk ∈ chunks then some (saturatingAdd (attempts[chunk]?.getD 1) 1)
        else attempts[chunk]? := by
  induction chunks generalizing attempts with
  | nil => simp
  | cons head rest ih =>
    obtain ⟨absent, nodup⟩ := List.nodup_cons.mp nodup
    rw [List.foldl_cons, ih nodup]
    by_cases same : chunk = head
    · subst same
      simp [absent]
    · simp only [get_insert_ne _ _ (Ne.symm same), List.mem_cons, same, false_or]

/-- No move changes what was submitted. -/
theorem Move.spec (move : Move state next)
    : next.spec = state.spec := by
  cases move with
  | handOut | writeOff | returnToQueue => rfl
  | tally => rfl
  | stop reason running => simp [TaskArrayState.stop, running]

-- Places

/-- The chunk sets put the chunk at this place. -/
def Placed (state : TaskArrayState) (chunk : Nat) : Place NodeId → Prop
  | .queued => chunk ∈ state.queued
  | .held node => ∃ held, state.grants[node]? = some held ∧ chunk ∈ held
  | .closed => chunk ∈ state.done

/-- The chunk sets put each chunk of the array where the queue has it, and nowhere else. -/
def Shows (queue : FencedQueue.State Nat NodeId) (state : TaskArrayState) : Prop :=
  ∀ chunk place,
    state.Placed chunk place ↔ chunk < state.spec.chunkCount ∧ queue.place chunk = place

theorem Shows.inside (shows' : Shows queue state) {place : Place NodeId}
    (placed : state.Placed chunk place)
    : chunk < state.spec.chunkCount :=
  ((shows' chunk place).mp placed).1

theorem Shows.place (shows' : Shows queue state) {place : Place NodeId}
    (placed : state.Placed chunk place)
    : queue.place chunk = place :=
  ((shows' chunk place).mp placed).2

theorem Shows.unique (shows' : Shows queue state) {place other : Place NodeId}
    (placed : state.Placed chunk place) (placed' : state.Placed chunk other)
    : place = other :=
  (shows'.place placed).symm.trans (shows'.place placed')

/-- A new array has every chunk queued. -/
theorem shows_new {spec : TaskArraySpec} {submitted : Nat}
    (created : new spec submitted = .ok state) (queued : ∀ chunk, queue.place chunk = .queued)
    : Shows queue state := by
  unfold new at created
  split at created
  · cases created
  rename_i accepted
  cases created
  obtain ⟨_, _, _⟩ := (TaskArraySpec.valid_of_validate accepted).chunkCount_bounds
  intro chunk place
  cases place with
  | queued =>
    simp only [Placed, IndexRangeSet.mem_fromRange, queued, and_true]
    omega
  | held node => simp [Placed, queued]
  | closed => simp [Placed, queued]

/-- Moving chunks from one place to another moves them in the queue. A chunk that moves was at
the source and, places being unique, nowhere else.
-/
theorem Shows.move {queue' : FencedQueue.State Nat NodeId} (source target : Place NodeId)
    (moving : Nat → Prop) (shows' : Shows queue state) (spec : next.spec = state.spec)
    (placed : ∀ chunk, moving chunk → state.Placed chunk source) (moved : ∀ chunk place,
        next.Placed chunk place
        ↔ (state.Placed chunk place ∧ ¬ (place = source ∧ moving chunk))
          ∨ (place = target ∧ moving chunk))
    (moves : ∀ chunk, moving chunk → queue'.place chunk = target) (stays : ∀ chunk,
        chunk < state.spec.chunkCount
        → ¬ moving chunk
        → queue'.place chunk = queue.place chunk)
    : Shows queue' next := by
  intro chunk place
  rw [moved, spec]
  by_cases isMoving : moving chunk
  · have wasThere := placed chunk isMoving
    rw [moves chunk isMoving]
    constructor
    · rintro (⟨stayed, elsewhere⟩ | ⟨same, _⟩)
      · exact absurd ⟨shows'.unique stayed wasThere, isMoving⟩ elsewhere
      · exact ⟨shows'.inside wasThere, same.symm⟩
    · rintro ⟨_, same⟩
      exact Or.inr ⟨same.symm, isMoving⟩
  · simp only [isMoving, and_false, not_false_eq_true, and_true, or_false]
    rw [shows' chunk place]
    exact and_congr_right fun inside => by rw [stays chunk inside isMoving]

theorem shows_handOut (shows' : Shows queue state) (queued : ∀ chunk ∈ chunks, chunk ∈ state.queued)
    : Shows (FencedQueue.next queue (.lease node chunks.toFinset))
        (state.handOut node chunks) := by
  refine shows'.move .queued (.held node) (· ∈ chunks) rfl queued ?_ ?_ ?_
  · intro chunk place
    cases place with
    | queued => simp [Placed, handOut]
    | held other =>
      simp only [Placed, handOut, get_insert]
      by_cases same : node = other
      · subst same
        cases state.grants[node]? with
        | none => simp
        | some held => simp
      · simp [same, Ne.symm same]
    | closed => simp [Placed, handOut]
  · intro chunk moving
    simp [FencedQueue.next, FencedQueue.nextPlace, moving]
  · intro chunk _ staying
    simp [FencedQueue.next, FencedQueue.nextPlace, staying]

theorem shows_tally {result : ChunkResult} {held : IndexRangeSet} (shows' : Shows queue state)
    (accepts : state.Accepts node result held)
    : Shows (FencedQueue.next queue (.settle node result.chunk false))
        (state.tally node result) := by
  refine shows'.move (.held node) .closed (· = result.chunk) rfl ?_ ?_ ?_ ?_
  · rintro chunk rfl
    exact ⟨held, accepts.holds, accepts.member⟩
  · intro chunk place
    cases place with
    | queued => simp [Placed]
    | held other =>
      simp only [Placed, tally_grants, get_releaseGrant accepts.holds]
      by_cases same : node = other
      · subst same
        cases empty : (held.remove result.chunk).isEmpty with
        | true =>
          have none := IndexRangeSet.isEmpty_iff.mp empty chunk
          simpa [accepts.holds] using none
        | false => simp [accepts.holds]
      · simp [same, Ne.symm same]
    | closed => simp [Placed]
  · rintro chunk rfl
    simp [FencedQueue.next, FencedQueue.nextPlace]
  · intro chunk _ staying
    simp [FencedQueue.next, FencedQueue.nextPlace, staying]

theorem shows_stop (shows' : Shows queue state) (reason : StopReason)
    (running : state.stopped = none)
    : Shows (FencedQueue.next queue .close) (state.stop reason) := by
  refine shows'.move .queued .closed (· ∈ state.queued) (Move.stop reason running).spec
    (fun _ queued => queued) ?_ ?_ ?_
  · intro chunk place
    cases place with
    | queued | held | closed => simp [Placed, stop, running]
  · intro chunk moving
    simp [FencedQueue.next, FencedQueue.nextPlace,
      shows'.place (show state.Placed chunk .queued from moving)]
  · intro chunk inside staying
    have elsewhere : queue.place chunk ≠ .queued := fun queued =>
      staying ((shows' chunk .queued).mpr ⟨inside, queued⟩)
    simp [FencedQueue.next, FencedQueue.nextPlace, elsewhere]

/-- Taking back a node's grant leaves every other node's alone. -/
private theorem placed_held_erase (holds : state.grants[node]? = some chunks) (other : NodeId)
    (chunk : Nat)
    : (∃ held, (state.grants.erase node)[other]? = some held ∧ chunk ∈ held)
      ↔ (∃ held, state.grants[other]? = some held ∧ chunk ∈ held)
        ∧ ¬ (other = node ∧ chunk ∈ chunks) := by
  rw [get_erase]
  by_cases same : node = other
  · subst same
    simp [holds]
  · simp [same, Ne.symm same]

section

variable (shows' : Shows queue state) (holds : state.grants[node]? = some chunks)
include shows' holds

/-- A chunk of the array is in the node's grant exactly if the queue says that it holds it. -/
private theorem Shows.held_iff (inside : chunk < state.spec.chunkCount)
    : chunk ∈ chunks ↔ queue.place chunk = .held node := by
  have here := shows' chunk (.held node)
  simpa [Placed, holds, inside] using here

theorem shows_writeOff
    : Shows (FencedQueue.next queue (.abandon node)) (state.writeOff node chunks) := by
  have held (chunk : Nat) (member : chunk ∈ chunks) : state.Placed chunk (.held node) :=
    ⟨chunks, holds, member⟩
  refine shows'.move (.held node) .closed (· ∈ chunks) rfl held ?_ ?_ ?_
  · intro chunk place
    cases place with
    | queued => simp [Placed, writeOff]
    | held other =>
      simp only [Placed, writeOff, placed_held_erase holds]
      simp
    | closed => simp [Placed, writeOff]
  · intro chunk moving
    simp [FencedQueue.next, FencedQueue.nextPlace, shows'.place (held chunk moving)]
  · intro chunk inside staying
    simp [FencedQueue.next, FencedQueue.nextPlace, mt (shows'.held_iff holds inside).mpr staying]

theorem shows_returnToQueue
    : Shows (FencedQueue.next queue (.reclaim node)) (state.returnToQueue node chunks) := by
  have held (chunk : Nat) (member : chunk ∈ chunks) : state.Placed chunk (.held node) :=
    ⟨chunks, holds, member⟩
  refine shows'.move (.held node) .queued (· ∈ chunks) rfl held ?_ ?_ ?_
  · intro chunk place
    cases place with
    | queued => simp [Placed, returnToQueue]
    | held other =>
      simp only [Placed, returnToQueue, placed_held_erase holds]
      simp
    | closed => simp [Placed, returnToQueue]
  · intro chunk moving
    simp [FencedQueue.next, FencedQueue.nextPlace, shows'.place (held chunk moving)]
  · intro chunk inside staying
    simp [FencedQueue.next, FencedQueue.nextPlace, mt (shows'.held_iff holds inside).mpr staying]

end

/-- Every move of a task array is an action of its queue. -/
theorem Move.shows (shows' : Shows queue state) (move : Move state next)
    : ∃ action, Shows (FencedQueue.next queue action) next := by
  cases move with
  | handOut _ _ queued _ => exact ⟨_, shows_handOut shows' queued⟩
  | tally accepts => exact ⟨_, shows_tally shows' accepts⟩
  | stop reason running => exact ⟨_, shows_stop shows' reason running⟩
  | writeOff holds _ => exact ⟨_, shows_writeOff shows' holds⟩
  | returnToQueue holds _ => exact ⟨_, shows_returnToQueue shows' holds⟩

/-- Every chunk of the array is at exactly one place. -/
theorem Shows.existsUnique (shows' : Shows queue state) (inside : chunk < state.spec.chunkCount)
    : ∃! place, state.Placed chunk place :=
  ⟨queue.place chunk, (shows' chunk _).mpr ⟨inside, rfl⟩,
    fun _ placed => (shows'.place placed).symm⟩

def QueueClosed (state : TaskArrayState) : Prop :=
  state.stopped ≠ none → ∀ chunk, chunk ∉ state.queued

theorem queueClosed_of_running (running : state.stopped = none)
    : state.QueueClosed :=
  fun stopped => absurd running stopped

theorem Move.queueClosed (closed : state.QueueClosed) (move : Move state next)
    : next.QueueClosed := by
  cases move with
  | handOut _ running => exact queueClosed_of_running running
  | tally => exact closed
  | stop reason running =>
    intro _ chunk
    simp [TaskArrayState.stop, running]
  | writeOff => exact closed
  | returnToQueue _ running => exact queueClosed_of_running running

theorem Reachable.queueClosed (reachable : state.Reachable)
    : state.QueueClosed := by
  refine reachable.induction ?_ fun _ _ closed move => move.queueClosed closed
  intro spec submitted initial created
  unfold new at created
  split at created
  · cases created
  · cases created
    exact queueClosed_of_running rfl

end TaskArrayState

open IndexRangeSet

namespace TaskArrayState

-- Tasks of a set of chunks

def tasksOf (spec : TaskArraySpec) (chunks : Finset Nat) : Nat :=
  ∑ chunk ∈ chunks, spec.tasksInChunk chunk

variable {chunks : IndexRangeSet} {state : TaskArrayState} {spec : TaskArraySpec} {submitted : Nat}

/-- What one chunk adds to the tasks of a set: the last one may be short. -/
def tasksOfChunk (state : TaskArrayState) (chunk : Nat) : Nat :=
  let lastChunk := state.spec.chunkCount - 1
  if chunk = lastChunk then
    state.spec.chunkSize - (state.spec.chunkSize - state.spec.tasksInChunk lastChunk)
  else state.spec.chunkSize

theorem tasksIn_eq_sum (state : TaskArrayState) (chunks : IndexRangeSet)
    : state.tasksIn chunks = ∑ chunk ∈ chunks.toFinset, state.tasksOfChunk chunk := by
  have full : ∀ set : Finset Nat, state.spec.chunkCount - 1 ∉ set
      → ∑ chunk ∈ set, state.tasksOfChunk chunk = set.card * state.spec.chunkSize := by
    intro set absent
    refine Finset.sum_const_nat (fun chunk member => ?_)
    have different : chunk ≠ state.spec.chunkCount - 1 := by
      rintro rfl
      exact absent member
    simp [tasksOfChunk, different]
  unfold tasksIn
  simp only [contains_iff]
  split
  · rename_i member
    have listed : state.spec.chunkCount - 1 ∈ chunks.toFinset :=
      mem_toFinset.mpr member
    have size := Finset.card_erase_add_one listed
    rw [← Finset.add_sum_erase _ _ listed, full _ (Finset.notMem_erase _ _),
      ← card_toFinset, ← size, Nat.succ_mul]
    simp only [tasksOfChunk, if_true]
    omega
  · rename_i absent
    rw [full _ (by simpa using absent), card_toFinset]

/-- The closed form counts the same tasks: only the last chunk can be short. -/
theorem tasksIn_eq (valid : state.spec.Valid)
    (inside : ∀ chunk ∈ chunks, chunk < state.spec.chunkCount)
    : state.tasksIn chunks = tasksOf state.spec chunks.toFinset := by
  obtain ⟨_, _, _⟩ := valid.tasksInChunk_last
  rw [tasksIn_eq_sum]
  refine Finset.sum_congr rfl fun chunk member => ?_
  have := inside chunk (mem_toFinset.mp member)
  unfold tasksOfChunk
  simp only
  split
  · rename_i isLast
    rw [isLast]
    omega
  · exact (valid.tasksInChunk_full (by omega)).symm

-- The counters

/-- The spec is valid and the counters account for exactly the tasks of the retired chunks. -/
structure Accounted (state : TaskArrayState) : Prop where
  valid : state.spec.Valid
  shown : ∃ queue, Shows queue state
  counts
    : state.succeeded + state.failed + state.notRun = tasksOf state.spec state.done.toFinset

/-- Retiring chunks that were at another place adds their tasks to those of the retired ones.
-/
private theorem tasksOf_extend {retired : IndexRangeSet} (apart : ∀ chunk ∈ chunks, chunk ∉ retired)
    : tasksOf spec (retired.extendFrom chunks).toFinset
      = tasksOf spec retired.toFinset + tasksOf spec chunks.toFinset := by
  have union : (retired.extendFrom chunks).toFinset = retired.toFinset ∪ chunks.toFinset := by
    ext chunk
    simp
  have disjoint : Disjoint retired.toFinset chunks.toFinset := by
    rw [Finset.disjoint_right]
    intro chunk member
    simpa using apart chunk (mem_toFinset.mp member)
  rw [tasksOf, union, Finset.sum_union disjoint, tasksOf, tasksOf]

/-- Chunks at one place other than the retired ones are inside the array and not retired. -/
private theorem Accounted.apart (accounted : state.Accounted) (place : FencedQueue.Place NodeId)
    (live : place ≠ .closed) (placed : ∀ chunk ∈ chunks, state.Placed chunk place)
    : (∀ chunk ∈ chunks, chunk ∉ state.done)
      ∧ state.tasksIn chunks = tasksOf state.spec chunks.toFinset := by
  obtain ⟨_, shows'⟩ := accounted.shown
  refine ⟨?_, tasksIn_eq accounted.valid fun chunk member => shows'.inside (placed chunk member)⟩
  intro chunk member retired
  exact live (shows'.unique (placed chunk member) (show state.Placed chunk .closed from retired))

theorem accounted_new (created : new spec submitted = .ok state)
    : state.Accounted := by
  have shown : ∃ queue, Shows queue state :=
    ⟨⟨fun _ => .queued, fun _ => 0⟩, shows_new created fun _ => rfl⟩
  unfold new at created
  split at created
  · cases created
  rename_i accepted
  cases created
  exact ⟨TaskArraySpec.valid_of_validate accepted, shown, rfl⟩

/-- Every move keeps the account: what leaves the queue or a grant for good is counted once.
-/
theorem Move.accounted {next : TaskArrayState} (accounted : state.Accounted)
    (move : Move state next)
    : next.Accounted := by
  have counts := accounted.counts
  obtain ⟨_, shows'⟩ := accounted.shown
  obtain ⟨_, shown⟩ := move.shows shows'
  refine ⟨move.spec ▸ accounted.valid, ⟨_, shown⟩, ?_⟩
  rw [move.spec]
  cases move with
  | handOut => exact counts
  | returnToQueue => exact counts
  | tally accepts =>
    rename_i node result held
    have fresh : result.chunk ∉ state.done.toFinset := by simpa using accepts.unfinished
    have inserted : (state.done.insert result.chunk).toFinset
        = insert result.chunk state.done.toFinset := by
      ext chunk
      simp [or_comm]
    have reported := accepts.counts
    rw [tally_done, inserted, tasksOf, Finset.sum_insert fresh, ← reported]
    rw [tasksOf] at counts
    change state.succeeded + result.succeeded + (state.failed + result.failedCount)
      + (state.notRun + result.notRun) = _
    omega
  | stop reason running =>
    obtain ⟨apart, tasks⟩ := accounted.apart .queued (by simp) fun _ queued => queued
    simp only [TaskArrayState.stop, running, Option.isSome_none, Bool.false_eq_true, if_false]
    rw [tasksOf_extend apart, ← tasks]
    omega
  | writeOff holds stopped =>
    rename_i node chunks
    obtain ⟨apart, tasks⟩ := accounted.apart (.held node) (by simp)
      fun chunk member => ⟨chunks, holds, member⟩
    simp only [TaskArrayState.writeOff]
    rw [tasksOf_extend apart, ← tasks]
    omega

theorem Reachable.accounted (reachable : state.Reachable)
    : state.Accounted :=
  reachable.induction (fun _ _ _ created => accounted_new created)
    fun _ _ accounted move => move.accounted accounted

-- The parts

/-- The parts of an array are its chunks, each in one part. -/
theorem Shows.parts {queue : FencedQueue.State Nat NodeId} (shows' : Shows queue state)
    : (∀ chunk, (∃ part ∈ state.parts, chunk ∈ part) ↔ chunk < state.spec.chunkCount)
      ∧ state.parts.Pairwise fun left right => ∀ chunk ∈ left, chunk ∉ right := by
  -- A part goes with its own place, and a chunk has only one.
  let placed : List (FencedQueue.Place NodeId × IndexRangeSet) :=
    (.queued, state.queued)
      :: (state.grants.toList.map (fun entry => (.held entry.1, entry.2))
        ++ [(.closed, state.done)])
  have isParts : state.parts = placed.map Prod.snd := by
    simp [TaskArrayState.parts, placed, Function.comp_def]
  have there : ∀ part ∈ placed, ∀ chunk ∈ part.2, state.Placed chunk part.1 := by
    simp only [placed, List.forall_mem_cons, List.forall_mem_append, List.forall_mem_map]
    refine ⟨fun _ => id, fun entry listed chunk member => ?_, fun _ => id, nofun⟩
    exact ⟨entry.2, BTreeMap.mem_toList.mp listed, member⟩
  have different : placed.Pairwise fun left right => left.1 ≠ right.1 := by
    have keys := List.pairwise_map.mp (BTreeMap.nodup_keys_toList state.grants)
    refine List.pairwise_cons.mpr ⟨?_, List.pairwise_append.mpr ⟨List.pairwise_map.mpr ?_, ?_, ?_⟩⟩
    · simp only [List.forall_mem_append, List.forall_mem_map, List.forall_mem_singleton]
      exact ⟨fun _ _ => nofun, nofun⟩
    · exact keys.imp fun distinct same => distinct (FencedQueue.Place.held.inj same)
    · simp
    · simp only [List.forall_mem_map, List.forall_mem_singleton]
      exact fun _ _ => nofun
  rw [isParts]
  refine ⟨fun chunk => ⟨?_, fun inside => ?_⟩, List.pairwise_map.mpr ?_⟩
  · rintro ⟨_, listed, member⟩
    obtain ⟨part, inPlaced, rfl⟩ := List.mem_map.mp listed
    exact shows'.inside (there part inPlaced chunk member)
  · obtain ⟨place, isPlace, _⟩ := shows'.existsUnique inside
    cases place with
    | queued => exact ⟨state.queued, by simp [placed], isPlace⟩
    | held node =>
      obtain ⟨held, holds, member⟩ := isPlace
      refine ⟨held, List.mem_map.mpr ⟨(.held node, held), ?_, rfl⟩, member⟩
      simpa [placed] using BTreeMap.mem_toList.mpr holds
    | closed => exact ⟨state.done, by simp [placed], isPlace⟩
  · refine different.imp_of_mem fun inLeft inRight apart chunk left right => ?_
    exact apart (shows'.unique (there _ inLeft chunk left) (there _ inRight chunk right))

/-- Disjoint sets of chunks add up to their union, by induction on the sets. -/
private theorem sum_tasksOf {parts : List IndexRangeSet}
    (apart : parts.Pairwise fun left right => ∀ chunk ∈ left, chunk ∉ right)
    : ∃ whole, (∀ chunk, chunk ∈ whole ↔ ∃ part ∈ parts, chunk ∈ part)
        ∧ (parts.map (fun part => tasksOf spec part.toFinset)).sum = tasksOf spec whole := by
  induction parts with
  | nil => exact ⟨∅, by simp, rfl⟩
  | cons part rest ih =>
    obtain ⟨first, apart⟩ := List.pairwise_cons.mp apart
    obtain ⟨whole, members, sum⟩ := ih apart
    have disjoint : Disjoint part.toFinset whole := by
      rw [Finset.disjoint_left]
      intro chunk here there
      obtain ⟨other, listed, member⟩ := (members chunk).mp there
      exact first other listed chunk (mem_toFinset.mp here) member
    refine ⟨part.toFinset ∪ whole, fun chunk => by simp [members], ?_⟩
    rw [List.map_cons, List.sum_cons, sum, tasksOf, tasksOf, tasksOf, Finset.sum_union disjoint]

/-- Every task of the submission is counted, queued or held. -/
theorem Accounted.summary_total (accounted : state.Accounted)
    : state.summary.succeeded + state.summary.failed + state.summary.notRun
        + state.summary.queued + state.summary.held
      = state.spec.count := by
  obtain ⟨_, shows'⟩ := accounted.shown
  obtain ⟨inside, apart⟩ := shows'.parts
  obtain ⟨whole, members, sum⟩ := @sum_tasksOf state.spec _ apart
  have all : whole = Finset.range state.spec.chunkCount := by
    ext chunk
    rw [members, inside, Finset.mem_range]
  have each : ∀ part ∈ state.parts, tasksOf state.spec part.toFinset = state.tasksIn part :=
    fun part listed => (tasksIn_eq accounted.valid fun chunk member =>
      (inside chunk).mp ⟨part, listed, member⟩).symm
  rw [List.map_congr_left each, all, tasksOf, accounted.valid.sum_tasksInChunk] at sum
  have counts := accounted.counts
  rw [each state.done (by simp [parts])] at counts
  rw [← sum, summary]
  simp only [parts, List.map_cons, List.map_append, List.map_map, List.map_nil, List.sum_cons,
    List.sum_append, List.sum_nil, BTreeMap.total, Function.comp_def]
  omega

-- The counted reports

/-- The report a call applies, if it is a completion that is not refused or a repeat. -/
def appliedResult (state : TaskArrayState) : ArrayOp → Option ChunkResult
  | .complete node result =>
    match state.complete node result with
    | .ok (.applied, _) => some result
    | .ok (.duplicate, _) | .error _ => none
  | .grant _ _ | .requeueNode _ | .cancel | .refuseUnrunnable => none

/-- The reports a sequence of calls applies, in order. -/
def appliedResults : TaskArrayState → List ArrayOp → List ChunkResult
  | _, [] => []
  | state, op :: rest =>
    (state.appliedResult op).toList ++ appliedResults (state.step op) rest

def reported (state : TaskArrayState) : Nat × Nat × Nat :=
  (state.succeeded, state.failed, state.retried)

def reportedBy (results : List ChunkResult) : Nat × Nat × Nat :=
  ((results.map (·.succeeded)).sum, (results.map (·.failedCount)).sum,
    (results.map (·.retried)).sum)

/-- What only counted reports change: the counters, the accepted record and the histograms. -/
def books (state : TaskArrayState) :=
  (state.reported, (state.accepted, state.acceptedFolded), state.durationCounts,
    state.recentDurationCounts)

section

variable (state : TaskArrayState)

theorem books_stop (reason : StopReason)
    : (state.stop reason).books = state.books := by
  unfold stop
  split <;> rfl

/-- A call leaves the books alone, or it is a report that is counted. -/
theorem books_step (op : ArrayOp)
    : (state.appliedResult op = none ∧ (state.step op).books = state.books)
      ∨ ∃ node result next held,
          op = .complete node result
          ∧ state.complete node result = .ok (.applied, next)
          ∧ state.Accepts node result held
          ∧ (state.step op).books = (state.tally node result).books := by
  cases op with
  | grant node chunks =>
    refine Or.inl ⟨rfl, ?_⟩
    rcases step_grant state node chunks with same | ⟨_, _, _, _, same⟩
    · rw [same]
    · rw [same]
      rfl
  | complete node result =>
    simp only [step, appliedResult]
    cases completed : state.complete node result with
    | error refused => exact Or.inl ⟨rfl, rfl⟩
    | ok answer =>
      obtain ⟨_, _⟩ := answer
      rcases complete_ok completed with ⟨rfl, rfl⟩ | ⟨rfl, ⟨held, accepts⟩, rfl⟩
      · exact Or.inl ⟨rfl, rfl⟩
      refine Or.inr ⟨node, result, _, held, rfl, completed, accepts, ?_⟩
      rcases stopWhenFailed_cases (state.tally node result) with same | stops
      · simp only [accept, same]
      · simp only [accept, stops, books_stop]
  | requeueNode node =>
    refine Or.inl ⟨rfl, ?_⟩
    simp only [step, requeueNode]
    split
    · rfl
    simp only
    split
    · rfl
    · rfl
  | cancel => exact Or.inl ⟨rfl, books_stop state .cancelled⟩
  | refuseUnrunnable => exact Or.inl ⟨rfl, books_stop state .unrunnable⟩

/-- A call moves the counters by the report it applies, and only by that. -/
theorem reported_step (op : ArrayOp)
    : (state.step op).reported
      = state.reported + reportedBy (state.appliedResult op).toList := by
  rcases books_step state op with ⟨none, same⟩ | ⟨node, result, _, _, rfl, completed, _, same⟩
  · rw [none]
    refine (congrArg Prod.fst same).trans ?_
    simp [books, reported, reportedBy]
  · have applied : state.appliedResult (.complete node result) = some result := by
      simp [appliedResult, completed]
    rw [applied]
    refine (congrArg Prod.fst same).trans ?_
    simp [books, reported, reportedBy, tally, countOmitted, recordFailures, addCounts,
      addDurations, retire, recordAccepted, foldAcceptedWhenFull, release]

/-- A sequence of calls moves the counters by the reports it applies, by induction on it. -/
theorem reported_run (ops : List ArrayOp)
    : (state.run ops).reported = state.reported + reportedBy (state.appliedResults ops) := by
  induction ops generalizing state with
  | nil => simp [run, appliedResults, reportedBy, reported]
  | cons op rest ih =>
    have rest' := ih (state.step op)
    rw [run, List.foldl_cons, ← run, rest', reported_step, appliedResults, add_assoc]
    simp [reportedBy]

end

theorem reachable_run {initial : TaskArrayState} (created : new spec submitted = .ok initial)
    (ops : List ArrayOp)
    : (initial.run ops).Reachable :=
  ⟨spec, submitted, initial, ops, created, rfl⟩

theorem spec_of_new {initial : TaskArrayState} (created : new spec submitted = .ok initial)
    : initial.spec = spec
      ∧ initial.reported = (0, 0, 0) := by
  unfold new at created
  split at created
  · cases created
  · cases created
    exact ⟨rfl, rfl⟩

theorem spec_run (state : TaskArrayState) (ops : List ArrayOp)
    : (state.run ops).spec = state.spec := by
  induction ops generalizing state with
  | nil => rfl
  | cons op rest ih =>
    refine (ih (state.step op)).trans ?_
    exact Relation.ReflTransGen.head_induction_on (step_moves state op)
      (motive := fun start _ => (state.step op).spec = start.spec) rfl
      fun move _ later => later.trans move.spec

/-- After any calls on a new array, each of its chunks is queued, retired or in exactly one
grant, every task is accounted for, and the counters are the sums of the applied reports.
-/
theorem run_accounts_for_every_task {spec : TaskArraySpec} {submitted : Nat}
    {initial : TaskArrayState} (created : new spec submitted = .ok initial)
    (ops : List ArrayOp)
    : (∀ chunk < spec.chunkCount, ∃! place, (initial.run ops).Placed chunk place)
      ∧ (initial.run ops).summary.succeeded + (initial.run ops).summary.failed
          + (initial.run ops).summary.notRun + (initial.run ops).summary.queued
          + (initial.run ops).summary.held
        = spec.count
      ∧ (initial.run ops).succeeded = ((initial.appliedResults ops).map (·.succeeded)).sum
      ∧ (initial.run ops).failed = ((initial.appliedResults ops).map (·.failedCount)).sum
      ∧ (initial.run ops).retried = ((initial.appliedResults ops).map (·.retried)).sum := by
  obtain ⟨sameSpec, zero⟩ := spec_of_new created
  have accounted := (reachable_run created ops).accounted
  obtain ⟨_, shows'⟩ := accounted.shown
  have kept : (initial.run ops).spec = spec := (spec_run initial ops).trans sameSpec
  refine ⟨?_, kept ▸ accounted.summary_total, ?_⟩
  · intro chunk inside
    exact shows'.existsUnique (kept ▸ inside)
  · have sums := reported_run initial ops
    rw [zero] at sums
    simpa [reported, reportedBy] using sums

def shortLastChunk : TaskArraySpec :=
  { TaskArraySpec.withCount 3 with chunkSize := 2 }

/-- Both chunks granted, the grant taken back, the array cancelled: all three tasks are still
accounted for.
-/
theorem run_accounts_for_shortLastChunk
    : ∃ initial,
        new shortLastChunk 7 = .ok initial
        ∧ (initial.run
              [.grant "node-a" (.fromRange 0 1), .requeueNode "node-a", .cancel]).summary.notRun
            = 3
        ∧ ∀ chunk < shortLastChunk.chunkCount, ∃! place,
            (initial.run
              [.grant "node-a" (.fromRange 0 1), .requeueNode "node-a", .cancel]).Placed
              chunk place := by
  have created : new shortLastChunk 7 = .ok _ := rfl
  exact ⟨_, created, by decide +kernel, (run_accounts_for_every_task created _).1⟩

end TaskArrayState

end Reliaburger
