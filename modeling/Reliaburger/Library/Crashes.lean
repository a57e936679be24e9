import Reliaburger.Library.Runs

/-! Processes that change a disk one operation at a time, where an operation may fail, the process
may be stopped between any two of them, and the power may be cut.
-/

namespace Crashes

/-- What operations do to a disk. -/
structure Device (Disk Op Fault Loss : Type) where
  can : Op → Disk → Bool
  perform : Op → Disk → Disk
  fail : Op → Fault → Disk → Disk
  /-- What a power cut leaves. -/
  lose : Loss → Disk → Disk

/-- A process that has ended, or its next operation and how it goes on from the disk it then
finds. -/
inductive Process (Disk Op Result : Type) where
  | done (result : Result)
  | act (op : Op) (succeeded failed : Disk → Process Disk Op Result)

namespace Process

variable {Disk Op Fault Loss Result ε α β : Type}

/-- Perform an operation or end with an error. -/
def must (op : Op) (error : ε) (next : Disk → Process Disk Op (Except ε α)) (_ : Disk)
    : Process Disk Op (Except ε α) :=
  .act op next fun _ => .done (.error error)

/-- Go on from where a process ends well. -/
def andThen (next : α → Disk → Process Disk Op (Except ε β))
    : Process Disk Op (Except ε α) → Disk → Process Disk Op (Except ε β)
  | .done (.ok value), disk => next value disk
  | .done (.error error), _ => .done (.error error)
  | .act op succeeded failed, _ =>
    .act op (fun disk => andThen next (succeeded disk) disk)
      fun disk => andThen next (failed disk) disk

variable (device : Device Disk Op Fault Loss) (Kept : Disk → Prop) (Allowed : Op → Disk → Prop)

/-- However its operations turn out, the process keeps what holds of the disk, performs only what is
allowed and ends as promised. -/
def Safe (Ends : Result → Disk → Prop) : Process Disk Op Result → Disk → Prop
  | .done result, disk => Kept disk ∧ Ends result disk
  | .act op succeeded failed, disk =>
    Kept disk ∧ Allowed op disk
    ∧ (device.can op disk = true
      → Safe Ends (succeeded (device.perform op disk)) (device.perform op disk))
    ∧ ∀ fault, Safe Ends (failed (device.fail op fault disk)) (device.fail op fault disk)

variable {device Kept Allowed}

theorem Safe.kept {Ends : Result → Disk → Prop} {process : Process Disk Op Result} {disk : Disk}
    (safe : process.Safe device Kept Allowed Ends disk)
    : Kept disk := by
  cases process with
  | done => exact safe.1
  | act => exact safe.1

theorem Safe.mono {Ends Weaker : Result → Disk → Prop} {process : Process Disk Op Result}
    {disk : Disk} (safe : process.Safe device Kept Allowed Ends disk)
    (weaker : ∀ result disk, Kept disk → Ends result disk → Weaker result disk)
    : process.Safe device Kept Allowed Weaker disk := by
  induction process generalizing disk with
  | done result => exact ⟨safe.1, weaker result disk safe.1 safe.2⟩
  | act op succeeded failed succeededIh failedIh =>
    obtain ⟨kept, allowed, succeeds, fails⟩ := safe
    exact ⟨kept, allowed, fun can => succeededIh _ (succeeds can),
      fun fault => failedIh _ (fails fault)⟩

theorem Safe.andThen {Ends : Except ε β → Disk → Prop}
    {next : α → Disk → Process Disk Op (Except ε β)} {process : Process Disk Op (Except ε α)}
    {disk : Disk}
    (safe : process.Safe device Kept Allowed (fun result disk =>
      match result with
      | .ok value => (next value disk).Safe device Kept Allowed Ends disk
      | .error error => Ends (.error error) disk) disk)
    : (process.andThen next disk).Safe device Kept Allowed Ends disk := by
  induction process generalizing disk with
  | done result =>
    cases result with
    | ok value => exact safe.2
    | error => exact safe
  | act op succeeded failed succeededIh failedIh =>
    obtain ⟨kept, allowed, succeeds, fails⟩ := safe
    exact ⟨kept, allowed, fun can => succeededIh _ (succeeds can),
      fun fault => failedIh _ (fails fault)⟩

end Process

-- One process at a time

/-- A disk and the call that works on it. -/
structure Machine (Call Disk Op Result : Type) where
  disk : Disk
  running : Option (Call × Process Disk Op Result)

inductive Event (Call Fault Loss : Type) where
  | call (made : Call)
  /-- The next operation succeeds, or the call returns. -/
  | succeed
  | fail (fault : Fault)
  | crash
  | cut (loss : Loss)

namespace Machine

variable {Call Disk Op Fault Loss Result : Type} {device : Device Disk Op Fault Loss}
  {code : Call → Disk → Process Disk Op Result} {machine : Machine Call Disk Op Result}

def step (device : Device Disk Op Fault Loss) (code : Call → Disk → Process Disk Op Result)
    (machine : Machine Call Disk Op Result)
    : Event Call Fault Loss → Machine Call Disk Op Result
  | .call made =>
    match machine.running with
    | some _ => machine
    | none => { machine with running := some (made, code made machine.disk) }
  | .succeed =>
    match machine.running with
    | some (made, .act op succeeded _) =>
      if device.can op machine.disk then
        let disk := device.perform op machine.disk
        ⟨disk, some (made, succeeded disk)⟩
      else machine
    | _ => { machine with running := none }
  | .fail fault =>
    match machine.running with
    | some (made, .act op _ failed) =>
      let disk := device.fail op fault machine.disk
      ⟨disk, some (made, failed disk)⟩
    | _ => machine
  | .crash => { machine with running := none }
  | .cut loss => ⟨device.lose loss machine.disk, none⟩

/-- What holds of the disk is kept, and the rest of the call is safe. -/
def Sound (device : Device Disk Op Fault Loss) (Kept : Disk → Prop)
    (Allowed : Op → Disk → Prop) (Ends : Call → Result → Disk → Prop)
    (machine : Machine Call Disk Op Result)
    : Prop :=
  Kept machine.disk
  ∧ ∀ made process, machine.running = some (made, process)
      → process.Safe device Kept Allowed (Ends made) machine.disk

variable {Kept : Disk → Prop} {Allowed : Op → Disk → Prop} {Ends : Call → Result → Disk → Prop}

theorem Sound.idle {disk : Disk} (kept : Kept disk)
    : (⟨disk, none⟩ : Machine Call Disk Op Result).Sound device Kept Allowed Ends :=
  ⟨kept, fun _ _ running => nomatch running⟩

theorem Sound.step {event : Event Call Fault Loss}
    (sound : machine.Sound device Kept Allowed Ends)
    (lossy : ∀ loss disk, Kept disk → Kept (device.lose loss disk))
    (safe : ∀ made, event = .call made → machine.running = none
      → (code made machine.disk).Safe device Kept Allowed (Ends made) machine.disk)
    : (machine.step device code event).Sound device Kept Allowed Ends := by
  obtain ⟨disk, running⟩ := machine
  obtain ⟨kept, rest⟩ := sound
  cases event with
  | crash => exact .idle kept
  | cut loss => exact .idle (lossy loss disk kept)
  | call made =>
    cases running with
    | some => exact ⟨kept, rest⟩
    | none =>
      refine ⟨kept, ?_⟩
      rintro _ _ ⟨⟩
      exact safe made rfl rfl
  | succeed =>
    rcases running with _ | ⟨made, _ | ⟨_, _, _⟩⟩
    · exact .idle kept
    · exact .idle kept
    · have now := rest made _ rfl
      simp only [step]
      split
      · rename_i can
        refine ⟨(now.2.2.1 can).kept, ?_⟩
        rintro _ _ ⟨⟩
        exact now.2.2.1 can
      · exact ⟨kept, rest⟩
  | fail fault =>
    rcases running with _ | ⟨made, _ | ⟨_, _⟩⟩
    · exact ⟨kept, rest⟩
    · exact ⟨kept, rest⟩
    · have now := (rest made _ rfl).2.2.2 fault
      refine ⟨now.kept, ?_⟩
      rintro _ _ ⟨⟩
      exact now

/-- When every call is safe from where it is made, every machine that a run reaches is sound. -/
theorem run_sound {condition : Machine Call Disk Op Result → Event Call Fault Loss → Prop}
    {events : List (Event Call Fault Loss)}
    (lossy : ∀ loss disk, Kept disk → Kept (device.lose loss disk))
    (safe : ∀ machine made, Kept machine.disk → condition machine (.call made)
      → (code made machine.disk).Safe device Kept Allowed (Ends made) machine.disk)
    (meets : Runs.Meets (step device code) condition machine events)
    (start : machine.Sound device Kept Allowed Ends)
    : (Runs.run (step device code) machine events).Sound device Kept Allowed Ends := by
  refine meets.invariant (Sound device Kept Allowed Ends) (fun machine event sound met => ?_) start
  refine sound.step lossy fun made called _ => ?_
  subst called
  exact safe machine made sound.1 met

end Machine

end Crashes
