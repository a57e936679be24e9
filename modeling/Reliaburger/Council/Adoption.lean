import Reliaburger.Council.Fence

/-! Raft frames handled side by side on a node that joins a council: each is admitted by the fence,
the one that makes the node adopt an epoch writes the record, and then the frame is handed to Raft.
-/

namespace Reliaburger

open FenceSnapshot

-- Handlers

inductive FrameStage where
  | received
  /-- Told to persist the adopted claim before going on. -/
  | persisting (under : RecoveryClaim)
  /-- To be handed to Raft next. -/
  | admitted (under : RecoveryClaim)
  | delivered (under : RecoveryClaim)
  /-- Refused, or dropped because the write failed. -/
  | closed
deriving DecidableEq, Repr

/-- The claim a frame past the fence was admitted under. -/
def FrameStage.under : FrameStage → Option RecoveryClaim
  | .received | .closed => none
  | .persisting under | .admitted under | .delivered under => some under

structure RaftFrame where
  sender : RecoveryClaim
  stage : FrameStage
deriving DecidableEq, Repr

/-- How a write of the record ends. A failed write may already have replaced the file. -/
inductive WriteOutcome where
  | written
  | failed
  | failedAfterRename
deriving DecidableEq, Repr

/-- A node's fence and the frames its handlers are working on. -/
structure FrameServer where
  fence : RecoveryFence
  frames : List RaftFrame
deriving DecidableEq, Repr

namespace FrameServer

inductive Step where
  | receive (index : Nat)
  | persist (index : Nat) (outcome : WriteOutcome)
  | deliver (index : Nat)
deriving DecidableEq, Repr

def stageAfter (answer : RecoveryFence.Admission) (snapshot : FenceSnapshot) : FrameStage :=
  match answer with
  | .serve => .admitted ⟨snapshot.epoch, snapshot.recoveryId⟩
  | .adopted => .persisting ⟨snapshot.epoch, snapshot.recoveryId⟩
  | .refuse _ => .closed

def receive (server : FrameServer) (index : Nat) : FrameServer :=
  match server.frames[index]? with
  | some ⟨sender, .received⟩ =>
    let answered := RecoveryFence.admission server.fence.snapshot sender
    { fence := { server.fence with snapshot := answered.2 }
      frames := server.frames.set index ⟨sender, stageAfter answered.1 answered.2⟩ }
  | _ => server

def persist (server : FrameServer) (index : Nat) (outcome : WriteOutcome) : FrameServer :=
  match server.frames[index]? with
  | some ⟨sender, .persisting under⟩ =>
    { fence := if outcome = .failed then server.fence else server.fence.persist
      frames := server.frames.set index
        ⟨sender, if outcome = .written then .admitted under else .closed⟩ }
  | _ => server

def deliver (server : FrameServer) (index : Nat) : FrameServer :=
  match server.frames[index]? with
  | some ⟨sender, .admitted under⟩ =>
    { server with frames := server.frames.set index ⟨sender, .delivered under⟩ }
  | _ => server

def step (server : FrameServer) : Step → FrameServer
  | .receive index => server.receive index
  | .persist index outcome => server.persist index outcome
  | .deliver index => server.deliver index

-- Durable before acted on

def Names (file : Option FenceRecord) (claim : RecoveryClaim) : Prop :=
  ∃ record, file = some record ∧ record.epoch = claim.epoch ∧ record.recoveryId = claim.id

/-- Every frame that was handed to Raft has its claim on disk. -/
def Durable (server : FrameServer) : Prop :=
  ∀ frame ∈ server.frames, ∀ under, frame.stage = .delivered under
    → Names server.fence.file under

/-- A frame that the fence let pass is only handed to Raft once some write has replaced the file. -/
def WrittenFirst (server : FrameServer) : Step → Prop
  | .deliver index =>
    ∀ sender under, server.frames[index]? = some ⟨sender, .admitted under⟩
      → server.fence.file ≠ none
  | _ => True

structure Joining (server : FrameServer) : Prop where
  unclaimed : server.fence.snapshot.state = .unclaimed
  unwritten : server.fence.file = none
  received : ∀ frame ∈ server.frames, frame.stage = .received

/-- What the handlers keep: the record names the claim of the fence, so does every frame past the
fence, and a frame in Raft found a record. -/
structure Handled (server : FrameServer) : Prop where
  recorded
    : ∀ record, server.fence.file = some record
        → server.fence.snapshot.claim = some ⟨record.epoch, record.recoveryId⟩
  admitted
    : ∀ frame ∈ server.frames, ∀ under, frame.stage.under = some under
        → server.fence.snapshot.claim = some under
  written
    : ∀ frame ∈ server.frames, ∀ under, frame.stage = .delivered under
        → server.fence.file ≠ none

theorem Handled.durable {server : FrameServer} (handled : server.Handled) : server.Durable := by
  intro frame member under delivered
  have claimed := handled.admitted frame member under (by rw [delivered]; rfl)
  obtain ⟨record, found⟩ :=
    Option.ne_none_iff_exists'.mp (handled.written frame member under delivered)
  have named := handled.recorded record found
  rw [claimed] at named
  cases named
  exact ⟨record, found, rfl, rfl⟩

theorem Joining.handled {server : FrameServer} (joining : server.Joining) : server.Handled := by
  refine ⟨fun record found => ?_, fun frame member under stage => ?_,
    fun frame member under stage => ?_⟩
  · rw [joining.unwritten] at found
    cases found
  · rw [joining.received frame member] at stage
    cases stage
  · rw [joining.received frame member] at stage
    cases stage

open RecoveryFence

variable {server : FrameServer} {snapshot : FenceSnapshot} {sender : RecoveryClaim}

/-- A message is served by a serving node, whose fence does not move. -/
theorem serve_cases (serves : (admission snapshot sender).1 = .serve)
    : snapshot.state = .serving ∧ (admission snapshot sender).2 = snapshot := by
  rw [admission] at serves ⊢
  split at serves
  · split at serves <;> cases serves
  · rename_i serving
    split at serves
    · rename_i agrees
      exact ⟨serving, by rw [if_pos agrees]⟩
    · cases serves
  · cases serves

/-- Only an unclaimed node adopts, and then it holds the sender's claim. -/
theorem adopted_cases (adopts : (admission snapshot sender).1 = .adopted)
    : snapshot.state = .unclaimed
      ∧ (admission snapshot sender).2 = ⟨sender.epoch, sender.id, .serving⟩ := by
  rw [admission] at adopts ⊢
  split at adopts
  · rename_i unclaimed
    split at adopts
    · cases adopts
    rename_i reached
    refine ⟨unclaimed, ?_⟩
    rw [if_neg reached]
  · split at adopts <;> cases adopts
  · cases adopts

/-- What passes the fence is admitted under the claim that the fence then holds. -/
theorem claim_of_stageAfter {under : RecoveryClaim}
    (passes : (stageAfter (admission snapshot sender).1 (admission snapshot sender).2).under
      = some under)
    : (admission snapshot sender).2.claim = some under := by
  cases answer : (admission snapshot sender).1 with
  | refuse => simp [stageAfter, answer, FrameStage.under] at passes
  | adopted =>
    obtain ⟨_, moved⟩ := adopted_cases answer
    simp only [stageAfter, answer, FrameStage.under, Option.some.injEq] at passes
    rw [← passes, moved]
    rfl
  | serve =>
    obtain ⟨serving, same⟩ := serve_cases answer
    simp only [stageAfter, answer, FrameStage.under, Option.some.injEq] at passes
    rw [← passes, same]
    exact claim_of_claimed (by simp [serving])

section

variable (handled : server.Handled)
include handled

theorem Handled.receive (index : Nat) : (server.receive index).Handled := by
  rw [FrameServer.receive]
  split
  · rename_i sender found
    have kept := (admission_extends server.fence.snapshot sender).claim
    refine ⟨fun record written => kept _ (handled.recorded record written),
      fun frame member under stage => ?_, fun frame member under stage => ?_⟩
    · rcases List.mem_or_eq_of_mem_set member with old | rfl
      · exact kept _ (handled.admitted frame old under stage)
      · exact claim_of_stageAfter stage
    · rcases List.mem_or_eq_of_mem_set member with old | rfl
      · exact handled.written frame old under stage
      -- An answer of the fence alone hands nothing to Raft.
      cases answer : (admission server.fence.snapshot sender).1 with
      | serve | adopted | refuse => simp [stageAfter, answer] at stage
  · exact handled

theorem Handled.persist (index : Nat) (outcome : WriteOutcome)
    : (server.persist index outcome).Handled := by
  rw [FrameServer.persist]
  split
  · rename_i sender under found
    have claimed := handled.admitted _ (List.mem_of_getElem? found) under rfl
    obtain ⟨rfl, _⟩ := epoch_of_claim claimed
    -- The write names the claim of the fence, whatever the outcome says.
    have same : (if outcome = .failed then server.fence else server.fence.persist).snapshot
        = server.fence.snapshot := by
      split <;> rfl
    refine ⟨fun record now => ?_, fun frame member under stage => ?_,
      fun frame member under stage => ?_⟩
    · rw [same]
      split at now
      · exact handled.recorded record now
      rcases Option.or_eq_some_iff.mp now with new | ⟨_, old⟩
      · obtain ⟨_, _, rfl⟩ := Option.map_eq_some_iff.mp new
        exact claimed
      · exact handled.recorded record old
    · rw [same]
      rcases List.mem_or_eq_of_mem_set member with old | rfl
      · exact handled.admitted frame old under stage
      split at stage <;> cases stage
      exact claimed
    · rcases List.mem_or_eq_of_mem_set member with old | rfl
      · have before := handled.written frame old under stage
        split
        · exact before
        rw [RecoveryFence.persist]
        cases server.fence.snapshot.record with
        | none => exact before
        | some record => simp
      · split at stage <;> cases stage
  · exact handled

theorem Handled.deliver {index : Nat} (first : server.WrittenFirst (.deliver index))
    : (server.deliver index).Handled := by
  rw [FrameServer.deliver]
  split
  · rename_i sender under found
    refine ⟨handled.recorded, fun frame member other stage => ?_,
      fun frame member other stage => ?_⟩
    · rcases List.mem_or_eq_of_mem_set member with old | rfl
      · exact handled.admitted frame old other stage
      · exact handled.admitted _ (List.mem_of_getElem? found) other stage
    · rcases List.mem_or_eq_of_mem_set member with old | rfl
      · exact handled.written frame old other stage
      · exact first sender under found
  · exact handled

theorem Handled.step (next : Step) (first : server.WrittenFirst next)
    : (server.step next).Handled := by
  cases next with
  | receive index => exact handled.receive index
  | persist index outcome => exact handled.persist index outcome
  | deliver index => exact handled.deliver first

end

/-- A frame that is handed to Raft too early finds no record to name its claim. -/
theorem writtenFirst_of_durable {next : Step} (durable : (server.step next).Durable)
    : server.WrittenFirst next := by
  cases next with
  | receive index | persist index outcome => trivial
  | deliver index =>
    intro sender under found unwritten
    have stepped : server.step (.deliver index)
        = { server with frames := server.frames.set index ⟨sender, .delivered under⟩ } := by
      simp only [step, deliver, found]
    rw [stepped] at durable
    obtain ⟨within, _⟩ := List.getElem?_eq_some_iff.mp found
    obtain ⟨record, written, _⟩ := durable _ (List.mem_set within _) under rfl
    cases unwritten.symm.trans written

/-- The adopted epoch is durable before it is acted on, in every state of a run, exactly when no
frame is handed to Raft before a write of the record has replaced the file. -/
theorem adopted_epoch_durable_iff (start : FrameServer) (steps : List Step)
    (joining : start.Joining)
    : (∀ count, (Runs.run step start (steps.take count)).Durable)
      ↔ Runs.Meets step WrittenFirst start steps := by
  have handled := joining.handled
  clear joining
  constructor
  · intro durable
    clear handled
    induction steps generalizing start with
    | nil => trivial
    | cons next rest ih =>
      exact ⟨writtenFirst_of_durable (durable 1), ih _ fun count => durable (count + 1)⟩
  · intro meets count
    refine Handled.durable ?_
    induction steps generalizing start count with
    | nil => simpa using handled
    | cons next rest ih =>
      cases count with
      | zero => exact handled
      | succ count => exact ih _ (handled.step next meets.1) meets.2 count

/-- A fresh joiner contacted twice by the same council. -/
def contactedTwice : FrameServer where
  fence := load none ⟨0, none⟩ false false
  frames := [⟨⟨1, some 7⟩, .received⟩, ⟨⟨1, some 7⟩, .received⟩]

theorem contactedTwice_joining : contactedTwice.Joining :=
  ⟨rfl, rfl, by simp [contactedTwice]⟩

/-- The second frame is handed to Raft while the first one's write is still to come. -/
theorem served_before_durable
    : ¬ ∀ (start : FrameServer) (steps : List Step),
        start.Joining → (Runs.run step start steps).Durable := by
  intro durable
  have early := durable contactedTwice [.receive 0, .receive 1, .deliver 1] contactedTwice_joining
  obtain ⟨record, written, _⟩ := early ⟨⟨1, some 7⟩, .delivered ⟨1, some 7⟩⟩ (by decide)
    ⟨1, some 7⟩ rfl
  have unwritten
      : (Runs.run step contactedTwice [.receive 0, .receive 1, .deliver 1]).fence.file = none := by
    decide
  rw [unwritten] at written
  cases written

/-- The second frame passes the fence while the first one's write is still to come, and waits for it
to be handed to Raft. -/
theorem contactedTwice_in_turn
    : (Runs.run step contactedTwice
        [.receive 0, .receive 1, .persist 0 .written, .deliver 1, .deliver 0]).Durable := by
  refine (adopted_epoch_durable_iff contactedTwice
    [.receive 0, .receive 1, .persist 0 .written, .deliver 1, .deliver 0]
    contactedTwice_joining).mpr ⟨trivial, trivial, trivial, ?_, ?_, trivial⟩ 5
  · intro sender under found
    decide
  · intro sender under found
    decide

end FrameServer

end Reliaburger
