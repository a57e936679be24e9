import Reliaburger.Library.Crashes

/-! Restoring a snapshot over a btrfs volume (`grill/snapshot.rs`): the journal, the two renames and
the recovery of an interrupted restore, on a directory whose changes a power cut may undo. The
volume is never lost: what the names hold in every state a power cut may leave, kept by each step
of a restore and of its recovery.
-/

namespace Reliaburger

open Crashes

-- The directory of a volume

inductive Subvolume (Data : Type) where
  /-- A copy that was not completed. -/
  | unfinished
  | complete (data : Data)
deriving DecidableEq

inductive RestorePhase where
  | staging
  | swapping
deriving DecidableEq

structure RestoreJournal where
  schema : Nat
  snapshot : String
  phase : RestorePhase
deriving DecidableEq

/-- The live volume, its siblings `.restore-staged` and `.restore-old`, and the journal. -/
inductive VolumeName where
  | live
  | staged
  | old
deriving DecidableEq

structure VolumeNames (Data : Type) where
  live : Option (Subvolume Data)
  staged : Option (Subvolume Data)
  old : Option (Subvolume Data)
  journal : Option RestoreJournal
deriving DecidableEq

namespace VolumeNames

variable {Data : Type}

def get (names : VolumeNames Data) : VolumeName → Option (Subvolume Data)
  | .live => names.live
  | .staged => names.staged
  | .old => names.old

def set (names : VolumeNames Data) (subvolume : Option (Subvolume Data))
    : VolumeName → VolumeNames Data
  | .live => { names with live := subvolume }
  | .staged => { names with staged := subvolume }
  | .old => { names with old := subvolume }

def rename (source target : VolumeName) (names : VolumeNames Data) : VolumeNames Data :=
  (names.set (names.get source) target).set none source

end VolumeNames

/-- The directory as processes see it and as a power cut may leave it. -/
structure RestoreDisk (Data : Type) where
  now : VolumeNames Data
  outcomes : List (VolumeNames Data)
  /-- For the statements only: the volume that the last restore found, and what it restores. -/
  before : Data
  restored : Data
deriving DecidableEq

structure VolumeSnapshot (Data : Type) where
  name : String
  data : Data
deriving DecidableEq

inductive RestoreOp (Data : Type) where
  | writeJournal (snapshot : VolumeSnapshot Data) (phase : RestorePhase)
  | removeJournal
  | syncDirectory
  /-- `btrfs subvolume snapshot` to the staged name. -/
  | createStaged (snapshot : VolumeSnapshot Data)
  | limitStaged (bytes : Nat)
  | rename (source target : VolumeName)
  | deleteSubvolume (name : VolumeName)
deriving DecidableEq

/-- How much of a subvolume command was done when it failed. -/
inductive RestoreFault where
  | nothing
  | partly
  | wholly
deriving DecidableEq

namespace RestoreDisk

variable {Data : Type}

/-- A directory with nothing unflushed. -/
def flushed (disk : RestoreDisk Data) (names : VolumeNames Data) : RestoreDisk Data :=
  { disk with now := names, outcomes := [names] }

/-- A rename or a new subvolume, which reaches the disk after those before it. -/
def change (change : VolumeNames Data → VolumeNames Data) (disk : RestoreDisk Data)
    : RestoreDisk Data :=
  { disk with now := change disk.now, outcomes := disk.outcomes ++ [change disk.now] }

/-- A deletion, which may have happened or not whatever else reached the disk. -/
def remove (change : VolumeNames Data → VolumeNames Data) (disk : RestoreDisk Data)
    : RestoreDisk Data :=
  { disk with now := change disk.now, outcomes := disk.outcomes ++ disk.outcomes.map change }

/-- Journal writes sync the directory, so all that was changed before is durable too. -/
def journalled (snapshot : VolumeSnapshot Data) (phase : RestorePhase) (disk : RestoreDisk Data)
    : RestoreDisk Data :=
  let written := disk.flushed { disk.now with journal := some ⟨1, snapshot.name, phase⟩ }
  match phase, disk.now.live with
  | .staging, some (.complete data) =>
    { written with before := data, restored := snapshot.data }
  | _, _ => written

def device : Device (RestoreDisk Data) (RestoreOp Data) RestoreFault Nat where
  can
    | .removeJournal, disk => disk.now.journal.isSome
    | .createStaged _, disk => disk.now.staged.isNone
    | .limitStaged _, disk => disk.now.staged.isSome
    | .rename source target, disk =>
      (disk.now.get source).isSome && (disk.now.get target).isNone
    | .deleteSubvolume name, disk => (disk.now.get name).isSome
    | _, _ => true
  perform
    | .writeJournal snapshot phase, disk => disk.journalled snapshot phase
    | .removeJournal, disk => disk.remove fun names => { names with journal := none }
    | .syncDirectory, disk => disk.flushed disk.now
    | .createStaged snapshot, disk => disk.change (·.set (some (.complete snapshot.data)) .staged)
    | .limitStaged _, disk => disk
    | .rename source target, disk => disk.change (.rename source target)
    | .deleteSubvolume name, disk => disk.remove (·.set none name)
  fail
    | .createStaged snapshot, fault, disk =>
      match fault, disk.now.staged with
      | .partly, none => disk.change (·.set (some .unfinished) .staged)
      | .wholly, none => disk.change (·.set (some (.complete snapshot.data)) .staged)
      | _, _ => disk
    | .deleteSubvolume name, .wholly, disk => disk.remove (·.set none name)
    | _, _, disk => disk
  lose outcome disk := disk.flushed (disk.outcomes.getD outcome disk.now)

end RestoreDisk

-- Recovery

inductive RestoreRecovery where
  | clean
  | discardStaged
  | finishSwap
  | dropOld
  | reinstateOld
  | ambiguous (reason : String)
deriving DecidableEq

inductive SnapshotError where
  | io
  | btrfs
  | unsettled (reason : String)
  | notDeleted
  /-- The swap failed and so did the rollback. -/
  | rollback
  /-- Restored, but the displaced original could not be removed. -/
  | displaced
  /-- Cleaning up the staged copy also failed. -/
  | cleanup (cause : SnapshotError)
deriving DecidableEq

abbrev RestoreProcess (Data : Type) :=
  Process (RestoreDisk Data) (RestoreOp Data) (Except SnapshotError Unit)

section

variable {Data : Type}

def planRestoreRecovery : Option RestorePhase → Bool → Bool → Bool → RestoreRecovery
  | none, _, false, false => .clean
  | none, _, _, _ => .ambiguous "restore copies exist without a journal"
  | some .staging, true, _, false => .discardStaged
  | some .staging, _, _, _ =>
    .ambiguous "the live volume moved before its replacement was complete"
  | some .swapping, true, true, false => .discardStaged
  | some .swapping, false, true, true => .finishSwap
  | some .swapping, true, false, _ => .dropOld
  | some .swapping, false, false, true => .reinstateOld
  | some .swapping, false, false, false => .ambiguous "no copy of the volume remains"
  | some .swapping, true, true, true =>
    .ambiguous "live, staged and displaced copies all exist"
  | some .swapping, false, true, false =>
    .ambiguous "only the staged copy exists; the original is missing"

def VolumeNames.recovery (names : VolumeNames Data) : RestoreRecovery :=
  planRestoreRecovery (names.journal.map (·.phase)) names.live.isSome names.staged.isSome
    names.old.isSome

variable (disk : RestoreDisk Data)

def removeJournal : RestoreProcess Data :=
  disk |> .must .removeJournal .io (.must .syncDirectory .io fun _ => .done (.ok ()))

/-- The end of `recover_volume`. -/
def settleVolume : RestoreProcess Data :=
  disk |> .must .syncDirectory .io removeJournal

def recoverVolume : RestoreProcess Data :=
  match disk.now.recovery with
  | .clean => .done (.ok ())
  | .discardStaged =>
    if disk.now.staged.isSome then
      disk |> .must (.deleteSubvolume .staged) .notDeleted settleVolume
    else settleVolume disk
  | .finishSwap =>
    disk |> .must (.rename .staged .live) .io
      (.must .syncDirectory .io (.must (.deleteSubvolume .old) .notDeleted settleVolume))
  | .dropOld =>
    if disk.now.old.isSome then
      disk |> .must (.deleteSubvolume .old) .notDeleted settleVolume
    else settleVolume disk
  | .reinstateOld => disk |> .must (.rename .old .live) .io settleVolume
  | .ambiguous reason => .done (.error (.unsettled reason))

/-- For one volume: it is recovered if its journal is found. -/
def recoverRestores : RestoreProcess Data :=
  if disk.now.journal.isSome then recoverVolume disk else .done (.ok ())

-- Restoring

def abandonRestore (cause : SnapshotError) (disk : RestoreDisk Data) : RestoreProcess Data :=
  let failed (_ : RestoreDisk Data) : RestoreProcess Data := .done (.error (.cleanup cause))
  let remove (_ : RestoreDisk Data) : RestoreProcess Data :=
    .act .removeJournal (fun _ => .act .syncDirectory (fun _ => .done (.error cause)) failed) failed
  if disk.now.staged.isSome then .act (.deleteSubvolume .staged) remove failed else remove disk

/-- Step 3: drop the displaced original and the journal. -/
def dropDisplaced : RestoreDisk Data → RestoreProcess Data :=
  .must (.deleteSubvolume .old) .displaced (.must .syncDirectory .io removeJournal)

/-- Step 2: swap by two renames. -/
def swapVolumes (_ : RestoreDisk Data) : RestoreProcess Data :=
  let undo : RestoreDisk Data → RestoreProcess Data :=
    .must (.rename .old .live) .rollback (.must .syncDirectory .io (abandonRestore .io))
  let moveIn (_ : RestoreDisk Data) : RestoreProcess Data :=
    .act (.rename .staged .live) (.must .syncDirectory .io dropDisplaced) undo
  .act (.rename .live .old) (.must .syncDirectory .io moveIn) (abandonRestore .io)

/-- Step 1: build the replacement beside the live volume. -/
def buildStaged (snapshot : VolumeSnapshot Data) (quota : Option Nat)
    (next : RestoreDisk Data → RestoreProcess Data) (_ : RestoreDisk Data)
    : RestoreProcess Data :=
  let synced (_ : RestoreDisk Data) : RestoreProcess Data :=
    .act .syncDirectory next (abandonRestore .btrfs)
  let limited (disk : RestoreDisk Data) : RestoreProcess Data :=
    match quota with
    | some bytes => .act (.limitStaged bytes) synced (abandonRestore .btrfs)
    | none => synced disk
  .act (.createStaged snapshot) limited (abandonRestore .btrfs)

def restore (snapshot : VolumeSnapshot Data) (quota : Option Nat) (disk : RestoreDisk Data)
    : RestoreProcess Data :=
  let swap : RestoreDisk Data → RestoreProcess Data :=
    .must (.writeJournal snapshot .swapping) .io swapVolumes
  let start : RestoreDisk Data → RestoreProcess Data :=
    .must (.writeJournal snapshot .staging) .io (buildStaged snapshot quota swap)
  (recoverVolume disk).andThen (fun _ => start) disk

end

/-- The calls on one volume; a restore that is refused beforehand does not touch it. -/
inductive RestoreCall (Data : Type) where
  | restore (snapshot : VolumeSnapshot Data) (quota : Option Nat)
  | recoverVolume
  | recoverRestores

def RestoreCall.code {Data : Type} : RestoreCall Data → RestoreDisk Data → RestoreProcess Data
  | .restore snapshot quota => Reliaburger.restore snapshot quota
  | .recoverVolume => Reliaburger.recoverVolume
  | .recoverRestores => Reliaburger.recoverRestores

variable {Data : Type} {before restored : Data} {names : VolumeNames Data} {disk : RestoreDisk Data}

def VolumeNames.isSwapping (names : VolumeNames Data) : Prop :=
  names.journal.map (·.phase) = some .swapping

/-- Where the volume from before the restore and its replacement may stand. -/
inductive VolumeNames.Accounted (before restored : Data) (names : VolumeNames Data) : Prop
  | untouched (live : names.live = some (.complete before)) (old : names.old = none)
  | aside (live : names.live = none) (old : names.old = some (.complete before))
    (staged : ∀ copy, names.staged = some copy → copy = .complete restored)
    (swapping : names.isSwapping)
  | swapped (live : names.live = some (.complete restored)) (staged : names.staged = none)
    (old : names.old = none ∨ names.isSwapping)
    (notStaging : names.journal.map (·.phase) ≠ some .staging)

section

variable (accounted : names.Accounted before restored)
include accounted

theorem VolumeNames.Accounted.aside_of_live (live : names.live = none)
    : names.old = some (.complete before)
      ∧ (∀ copy, names.staged = some copy → copy = .complete restored) ∧ names.isSwapping := by
  cases accounted with
  | untouched here => cases live.symm.trans here
  | aside _ old staged swapping => exact ⟨old, staged, swapping⟩
  | swapped here => cases live.symm.trans here

theorem VolumeNames.Accounted.unjournalled (old : names.old = none)
    : { names with journal := none }.Accounted before restored := by
  cases accounted with
  | untouched live => exact .untouched live old
  | aside _ kept => cases old.symm.trans kept
  | swapped live staged => exact .swapped live staged (.inl old) nofun

theorem VolumeNames.Accounted.unstaged
    : (names.set none .staged).Accounted before restored := by
  cases accounted with
  | untouched live old => exact .untouched live old
  | aside live old _ swapping => exact .aside live old nofun swapping
  | swapped live _ old notStaging => exact .swapped live rfl old notStaging

/-- A volume with a displaced copy beside it is the restored one. -/
theorem VolumeNames.Accounted.overwritten (live : names.live.isSome) (old : names.old.isSome)
    : names.live = some (.complete restored) ∧ names.staged = none
      ∧ (names.set none .old).Accounted before restored := by
  cases accounted with
  | untouched _ none => simp [none] at old
  | aside none => simp [none] at live
  | swapped here staged _ notStaging =>
    exact ⟨here, staged, .swapped here staged (.inl rfl) notStaging⟩

end

namespace RestoreDisk

/-- Whatever a power cut leaves is accounted for. -/
structure Kept (disk : RestoreDisk Data) : Prop where
  accounted : ∀ names ∈ disk.outcomes, names.Accounted disk.before disk.restored
  current : disk.now ∈ disk.outcomes

/-- The subvolume is complete and holds the volume from before the restore or what is restored. -/
def Survives (disk : RestoreDisk Data) (subvolume : Subvolume Data) : Prop :=
  subvolume = .complete disk.before ∨ subvolume = .complete disk.restored

/-- Exactly one complete volume is left. -/
def Settled (disk : RestoreDisk Data) : Prop :=
  (∃ subvolume, disk.now.live = some subvolume ∧ disk.Survives subvolume)
  ∧ disk.now.staged = none ∧ disk.now.old = none ∧ disk.now.journal = none

/-- Whatever a power cut leaves has the complete restored copy under the live name. -/
def LiveIsDurable (disk : RestoreDisk Data) : Prop :=
  ∀ names ∈ disk.outcomes, names.live = some (.complete disk.restored)

/-- Only staged copies are deleted before the live name durably holds the restored one. -/
def Allows : RestoreOp Data → RestoreDisk Data → Prop
  | .deleteSubvolume name, disk => name ≠ .staged → disk.LiveIsDurable
  | _, _ => True

theorem Kept.now (kept : disk.Kept) : disk.now.Accounted disk.before disk.restored :=
  kept.accounted _ kept.current

theorem kept_flushed (accounted : names.Accounted disk.before disk.restored)
    : (disk.flushed names).Kept where
  accounted := by simpa [flushed] using accounted
  current := by simp [flushed]

theorem Kept.flushed (kept : disk.Kept) : (disk.flushed disk.now).Kept :=
  kept_flushed kept.now

theorem Kept.lose (kept : disk.Kept) (outcome : Nat) : (device.lose outcome disk).Kept := by
  refine kept_flushed ?_
  rw [List.getD_eq_getElem?_getD]
  cases found : disk.outcomes[outcome]? with
  | none => exact kept.now
  | some names => exact kept.accounted names (List.mem_of_getElem? found)

theorem Kept.change {change : VolumeNames Data → VolumeNames Data} (kept : disk.Kept)
    (accounted : (change disk.now).Accounted disk.before disk.restored)
    : (disk.change change).Kept := by
  refine ⟨fun names listed => ?_, by simp [RestoreDisk.change]⟩
  rcases List.mem_append.mp listed with listed | listed
  · exact kept.accounted names listed
  · rw [List.mem_singleton.mp listed]
    exact accounted

theorem Kept.remove {change : VolumeNames Data → VolumeNames Data} (kept : disk.Kept)
    (accounted : ∀ names ∈ disk.outcomes, (change names).Accounted disk.before disk.restored)
    : (disk.remove change).Kept := by
  refine ⟨fun names listed => ?_, List.mem_append_right _ (List.mem_map_of_mem kept.current)⟩
  rcases List.mem_append.mp listed with listed | listed
  · exact kept.accounted names listed
  · obtain ⟨earlier, was, rfl⟩ := List.mem_map.mp listed
    exact accounted earlier was

theorem Kept.deleteStaged (kept : disk.Kept) : (disk.remove (·.set none .staged)).Kept :=
  kept.remove fun names listed => (kept.accounted names listed).unstaged

/-- The complete staged copy moves in. -/
theorem Kept.moveIn (kept : disk.Kept) (live : disk.now.live = none)
    (staged : disk.now.staged.isSome)
    : (disk.change (.rename .staged .live)).Kept := by
  obtain ⟨_, copies, swapping⟩ := kept.now.aside_of_live live
  obtain ⟨copy, held⟩ := Option.isSome_iff_exists.mp staged
  refine kept.change (.swapped (held.trans (congrArg some (copies copy held))) rfl (.inr swapping)
    fun staging => ?_)
  cases swapping.symm.trans staging

/-- The volume moves back. -/
theorem Kept.moveBack (kept : disk.Kept) (live : disk.now.live = none)
    : (disk.change (.rename .old .live)).Kept :=
  kept.change (.untouched (kept.now.aside_of_live live).1 rfl)

theorem Kept.settled (kept : disk.Kept) (staged : disk.now.staged = none)
    (old : disk.now.old = none) (journal : disk.now.journal = none)
    : disk.Settled := by
  refine ⟨?_, staged, old, journal⟩
  cases kept.now with
  | untouched live => exact ⟨_, live, .inl rfl⟩
  | aside _ displaced => cases old.symm.trans displaced
  | swapped live => exact ⟨_, live, .inr rfl⟩

def Returns (result : Except SnapshotError Unit) (disk : RestoreDisk Data) : Prop :=
  result = .ok () → disk.Settled

end RestoreDisk

-- Every step of recovery

open RestoreDisk

def RestoreProcess.Keeps (process : RestoreProcess Data) (disk : RestoreDisk Data) : Prop :=
  process.Safe device Kept Allows Returns disk

/-- An operation that changes nothing when it fails. -/
theorem keeps_must {op : RestoreOp Data} {error : SnapshotError}
    {next : RestoreDisk Data → RestoreProcess Data} (kept : disk.Kept) (allowed : Allows op disk)
    (plain : ∀ fault, device.fail op fault disk = disk)
    (succeeds : (next (device.perform op disk)).Keeps (device.perform op disk))
    : RestoreProcess.Keeps (.must op error next disk) disk := by
  refine ⟨kept, allowed, fun _ => succeeds, fun fault => ?_⟩
  rw [plain fault]
  exact ⟨kept, nofun⟩

theorem keeps_settle (kept : disk.Kept) (staged : disk.now.staged = none)
    (old : disk.now.old = none)
    : (settleVolume disk).Keeps disk := by
  have removed
      : ((disk.flushed disk.now).remove fun names => { names with journal := none }).Kept :=
    kept.flushed.remove (by simpa [flushed] using kept.now.unjournalled old)
  refine keeps_must kept trivial (fun _ => rfl) ?_
  refine keeps_must kept.flushed trivial (fun _ => rfl) ?_
  refine keeps_must removed trivial (fun _ => rfl) ⟨removed.flushed, fun _ => ?_⟩
  exact removed.flushed.settled staged old rfl

theorem keeps_dropOld {error : SnapshotError} (kept : (disk.flushed names).Kept)
    (live : names.live.isSome) (old : names.old.isSome)
    : RestoreProcess.Keeps (.must (.deleteSubvolume .old) error settleVolume (disk.flushed names))
      (disk.flushed names) := by
  obtain ⟨here, staged, accounted⟩ := kept.now.overwritten live old
  have deleted : ((disk.flushed names).remove (·.set none .old)).Kept :=
    kept.remove (by simpa [flushed] using accounted)
  refine ⟨kept, fun _ _ listed => ?_, fun _ => keeps_settle deleted staged rfl,
    fun fault => ⟨?_, nofun⟩⟩
  · rw [List.mem_singleton.mp listed]
    exact here
  · cases fault with
    | wholly => exact deleted
    | _ => exact kept

theorem keeps_deleteStaged {next failed : RestoreDisk Data → RestoreProcess Data}
    (kept : disk.Kept)
    (succeeds : (next (disk.remove (·.set none .staged))).Keeps (disk.remove (·.set none .staged)))
    (fails : ∀ left : RestoreDisk Data, left.Kept → (failed left).Keeps left)
    : RestoreProcess.Keeps (.act (.deleteSubvolume .staged) next failed) disk := by
  refine ⟨kept, fun other => absurd rfl other, fun _ => succeeds, fun fault => fails _ ?_⟩
  cases fault with
  | wholly => exact kept.deleteStaged
  | _ => exact kept

theorem VolumeNames.recovery_cases (names : VolumeNames Data)
    : match names.recovery with
      | .clean => names.staged = none ∧ names.old = none ∧ names.journal = none
      | .discardStaged => names.live.isSome ∧ names.old = none
      | .finishSwap => names.live = none ∧ names.staged.isSome ∧ names.old.isSome
      | .dropOld => names.live.isSome ∧ names.staged = none
      | .reinstateOld => names.live = none ∧ names.staged = none
      | .ambiguous _ => True := by
  rcases names with ⟨_ | _, _ | _, _ | _, _ | ⟨_, _, _ | _⟩⟩
    <;> simp [VolumeNames.recovery, planRestoreRecovery]

/-- The plan that deletes the displaced volume at once finds nothing unflushed. -/
def RestoreDisk.DropsFlushed (disk : RestoreDisk Data) : Prop :=
  disk.now.recovery = .dropOld → disk.now.old.isSome → disk.outcomes = [disk.now]

theorem keeps_recoverVolume (kept : disk.Kept) (durable : disk.DropsFlushed)
    : (recoverVolume disk).Keeps disk := by
  have shape := disk.now.recovery_cases
  unfold RestoreDisk.DropsFlushed at durable
  unfold recoverVolume
  generalize disk.now.recovery = plan at shape durable
  cases plan with
  | clean => exact ⟨kept, fun _ => kept.settled shape.1 shape.2.1 shape.2.2⟩
  | ambiguous => exact ⟨kept, nofun⟩
  | discardStaged =>
    dsimp only
    split
    · exact keeps_deleteStaged kept (keeps_settle kept.deleteStaged rfl shape.2)
        fun left kept => ⟨kept, nofun⟩
    · next absent => exact keeps_settle kept (by simpa using absent) shape.2
  | finishSwap =>
    have moved := kept.moveIn shape.1 shape.2.1
    refine keeps_must kept trivial (fun _ => rfl) (keeps_must moved trivial (fun _ => rfl) ?_)
    exact keeps_dropOld moved.flushed shape.2.1 shape.2.2
  | dropOld =>
    dsimp only
    split
    · rename_i displaced
      have flat : disk = disk.flushed disk.now := by
        rw [flushed, ← durable rfl displaced]
      rw [flat]
      exact keeps_dropOld kept.flushed shape.1 displaced
    · next absent => exact keeps_settle kept shape.2 (by simpa using absent)
  | reinstateOld =>
    refine keeps_must kept trivial (fun _ => rfl) ?_
    exact keeps_settle (kept.moveBack shape.1) shape.2 rfl

-- Every step of a restore

/-- The volume is where the restore found it, whatever a power cut leaves. -/
structure RestoreDisk.Untouched (disk : RestoreDisk Data) : Prop where
  live : ∀ names ∈ disk.outcomes, names.live = some (.complete disk.before) ∧ names.old = none
  current : disk.now ∈ disk.outcomes

theorem RestoreDisk.Untouched.kept (untouched : disk.Untouched) : disk.Kept :=
  ⟨fun names listed => .untouched (untouched.live names listed).1 (untouched.live names listed).2,
    untouched.current⟩

theorem untouched_flushed (live : names.live = some (.complete disk.before))
    (old : names.old = none)
    : (disk.flushed names).Untouched :=
  ⟨by simpa [flushed] using ⟨live, old⟩, by simp [flushed]⟩

theorem RestoreDisk.Untouched.stage (untouched : disk.Untouched) (copy : Subvolume Data)
    : (disk.change (·.set (some copy) .staged)).Untouched := by
  refine ⟨fun names listed => ?_, by simp [change]⟩
  rcases List.mem_append.mp listed with listed | listed
  · exact untouched.live names listed
  · rw [List.mem_singleton.mp listed]
    exact untouched.live disk.now untouched.current

theorem keeps_abandonRestore (cause : SnapshotError) (untouched : disk.Untouched)
    : (abandonRestore cause disk).Keeps disk := by
  have removes (left : RestoreDisk Data) (kept : left.Kept)
      (old : ∀ names ∈ left.outcomes, names.old = none)
      : RestoreProcess.Keeps (.act .removeJournal
          (fun _ => .act .syncDirectory (fun _ => .done (.error cause))
            fun _ => .done (.error (.cleanup cause)))
          fun _ => .done (.error (.cleanup cause))) left := by
    have removed : (left.remove fun names => { names with journal := none }).Kept :=
      kept.remove fun names listed => (kept.accounted names listed).unjournalled (old names listed)
    exact ⟨kept, trivial, fun _ => ⟨removed, trivial, fun _ => ⟨removed.flushed, nofun⟩, fun _ =>
      ⟨removed, nofun⟩⟩, fun _ => ⟨kept, nofun⟩⟩
  unfold abandonRestore
  dsimp only
  split
  · refine keeps_deleteStaged untouched.kept (removes _ untouched.kept.deleteStaged ?_)
      fun left kept => ⟨kept, nofun⟩
    intro names listed
    rcases List.mem_append.mp listed with listed | listed
    · exact (untouched.live names listed).2
    · obtain ⟨earlier, was, rfl⟩ := List.mem_map.mp listed
      exact (untouched.live earlier was).2
  · exact removes disk untouched.kept fun names listed => (untouched.live names listed).2

/-- From the swapping journal on, with the complete copy staged. -/
theorem keeps_swapVolumes (live : names.live = some (.complete disk.before))
    (old : names.old = none) (staged : names.staged = some (.complete disk.restored))
    (swapping : names.isSwapping)
    : (swapVolumes (disk.flushed names)).Keeps (disk.flushed names) := by
  have start := untouched_flushed live old
  have asideNames : (names.rename .live .old).Accounted disk.before disk.restored :=
    .aside rfl live (fun copy held => (Option.some.inj (staged.symm.trans held)).symm) swapping
  have aside : ((disk.flushed names).change (.rename .live .old)).Kept :=
    start.kept.change asideNames
  have away : (disk.flushed (names.rename .live .old)).Kept := kept_flushed asideNames
  have held : (names.rename .live .old).staged.isSome :=
    show names.staged.isSome by rw [staged]; rfl
  refine ⟨start.kept, trivial, fun _ => keeps_must aside trivial (fun _ => rfl) ?_,
    fun _ => keeps_abandonRestore .io start⟩
  refine ⟨away, trivial, fun _ => ?_, fun _ => ?_⟩
  · have moved := away.moveIn rfl held
    refine keeps_must moved trivial (fun _ => rfl) ?_
    exact keeps_dropOld moved.flushed held (show names.live.isSome by rw [live]; rfl)
  · have back := away.moveBack rfl
    refine keeps_must away trivial (fun _ => rfl) (keeps_must back trivial (fun _ => rfl) ?_)
    exact keeps_abandonRestore .io (untouched_flushed live rfl)

theorem keeps_buildStaged {snapshot : VolumeSnapshot Data} {quota : Option Nat}
    {next : RestoreDisk Data → RestoreProcess Data} (untouched : disk.Untouched)
    (goesOn : ∀ built : RestoreDisk Data, built.Untouched
      → built = disk.change (·.set (some (.complete snapshot.data)) .staged)
      → (next (built.flushed built.now)).Keeps (built.flushed built.now))
    : (buildStaged snapshot quota next disk).Keeps disk := by
  have built := untouched.stage (.complete snapshot.data)
  have synced : RestoreProcess.Keeps (.act .syncDirectory next (abandonRestore .btrfs))
      (disk.change (·.set (some (.complete snapshot.data)) .staged)) :=
    ⟨built.kept, trivial, fun _ => goesOn _ built rfl, fun _ => keeps_abandonRestore _ built⟩
  refine ⟨untouched.kept, trivial, fun _ => ?_, fun fault => keeps_abandonRestore _ ?_⟩
  · cases quota with
    | none => exact synced
    | some bytes =>
      exact ⟨built.kept, trivial, fun _ => synced, fun _ => keeps_abandonRestore _ built⟩
  · dsimp only [device]
    split
    · exact untouched.stage .unfinished
    · exact built
    · exact untouched

theorem keeps_restore (snapshot : VolumeSnapshot Data) (quota : Option Nat) (kept : disk.Kept)
    (durable : disk.DropsFlushed)
    : (restore snapshot quota disk).Keeps disk := by
  refine Process.Safe.andThen ((keeps_recoverVolume kept durable).mono ?_)
  intro result settled kept returned
  cases result with
  | error => exact nofun
  | ok =>
    obtain ⟨⟨_, found, survives⟩, _, old, _⟩ := returned rfl
    obtain ⟨data, rfl⟩ : ∃ data, _ = Subvolume.complete data :=
      survives.elim (⟨_, ·⟩) (⟨_, ·⟩)
    have written : device.perform (.writeJournal snapshot .staging) settled
        = { settled with before := data, restored := snapshot.data }.flushed
            { settled.now with journal := some ⟨1, snapshot.name, .staging⟩ } := by
      simp [device, journalled, found, flushed]
    refine keeps_must kept trivial (fun _ => rfl) ?_
    rw [written]
    refine keeps_buildStaged (untouched_flushed found old) fun built untouched made => ?_
    have here := untouched.live _ untouched.current
    refine keeps_must untouched.kept.flushed trivial (fun _ => rfl) ?_
    subst made
    exact keeps_swapVolumes here.1 here.2 rfl rfl

-- Every run

/-- The machine of one volume. -/
abbrev RestoreMachine (Data : Type) :=
  Machine (RestoreCall Data) (RestoreDisk Data) (RestoreOp Data) (Except SnapshotError Unit)

def RestoreMachine.advance
    : RestoreMachine Data → Event (RestoreCall Data) RestoreFault Nat → RestoreMachine Data :=
  Machine.step device RestoreCall.code

/-- A call that would delete the displaced volume at once finds nothing unflushed. -/
def RestoreMachine.DropsFlushed (machine : RestoreMachine Data)
    : Event (RestoreCall Data) RestoreFault Nat → Prop
  | .call _ => machine.disk.DropsFlushed
  | _ => True

/-- The volume is safe, `recover_volume` leaves it alone when it returns, and the data from before
the restore is deleted only when the live name durably holds the copy.
-/
structure RestoreMachine.NeverLoses (machine : RestoreMachine Data) : Prop where
  survives : ∃ name subvolume, machine.disk.now.get name = some subvolume
    ∧ machine.disk.Survives subvolume
  recovers : machine.running = some (.recoverVolume, .done (.ok ())) → machine.disk.Settled
  deletes : ∀ made name succeeded failed,
    machine.running = some (made, .act (.deleteSubvolume name) succeeded failed)
      → name ≠ .staged → machine.disk.LiveIsDurable

/-- What a call promises of its result; `recover_restores` skips a volume without a journal. -/
def RestoreCall.Returns : RestoreCall Data → Except SnapshotError Unit → RestoreDisk Data → Prop
  | .recoverRestores, _, _ => True
  | _, result, disk => disk.Returns result

theorem keeps_call (made : RestoreCall Data) (kept : disk.Kept) (durable : disk.DropsFlushed)
    : (made.code disk).Safe device Kept Allows made.Returns disk := by
  cases made with
  | restore snapshot quota => exact keeps_restore snapshot quota kept durable
  | recoverVolume => exact keeps_recoverVolume kept durable
  | recoverRestores =>
    change (recoverRestores disk).Safe device Kept Allows _ disk
    unfold recoverRestores
    split
    · exact (keeps_recoverVolume kept durable).mono fun _ _ _ _ => trivial
    · exact ⟨kept, trivial⟩

theorem RestoreDisk.Kept.survives (kept : disk.Kept)
    : ∃ name subvolume, disk.now.get name = some subvolume ∧ disk.Survives subvolume := by
  cases kept.now with
  | untouched live => exact ⟨.live, _, live, .inl rfl⟩
  | aside _ old => exact ⟨.old, _, old, .inl rfl⟩
  | swapped live => exact ⟨.live, _, live, .inr rfl⟩

/-- A volume at rest: nothing is unflushed and only the live name is there. -/
def atRest (data : Data) : RestoreMachine Data :=
  let names : VolumeNames Data := ⟨some (.complete data), none, none, none⟩
  ⟨⟨names, [names], data, data⟩, none⟩

theorem restore_never_loses_the_volume (data : Data)
    (events : List (Event (RestoreCall Data) RestoreFault Nat))
    (meets : Runs.Meets RestoreMachine.advance RestoreMachine.DropsFlushed (atRest data) events)
    : (Runs.run RestoreMachine.advance (atRest data) events).NeverLoses := by
  have start : (atRest data).disk.Kept :=
    ⟨by simpa [atRest] using .untouched rfl rfl, by simp [atRest]⟩
  have sound := Machine.run_sound (fun loss _ kept => kept.lose loss)
    (fun _ made kept durable => keeps_call made kept durable) meets (.idle start)
  refine ⟨sound.1.survives, fun running => ?_, fun made name succeeded failed running other => ?_⟩
  · exact (sound.2 _ _ running).2 rfl
  · exact (sound.2 _ _ running).2.1 other

/-- The process is stopped after the staged copy moved in, before the directory is flushed, and the
volume is recovered.
-/
def stoppedAfterMove : List (Event (RestoreCall Nat) RestoreFault Nat) :=
  .call (.restore ⟨"nightly", 2⟩ none)
    :: List.replicate 7 .succeed ++ [.crash, .call .recoverVolume]

/-- The recovery deletes the displaced volume while a power cut may still leave the live name empty;
it then finds no way to go on.
-/
theorem displaced_deleted_before_flush
    : ¬(Runs.run RestoreMachine.advance (atRest 1) stoppedAfterMove).NeverLoses
      ∧ let cut := Runs.run RestoreMachine.advance (atRest 1)
          (stoppedAfterMove ++ [.succeed, .cut 2])
        cut.disk.now.live = none ∧ cut.disk.now.old = none
        ∧ cut.disk.now.recovery
          = .ambiguous "only the staged copy exists; the original is missing" := by
  refine ⟨fun never => ?_, by decide⟩
  have live := never.deletes .recoverVolume .old _ _ rfl (by decide)
    ⟨none, some (.complete 2), some (.complete 1), some ⟨1, "nightly", .swapping⟩⟩ (by decide)
  cases live

theorem restore_cut_between_renames
    : (Runs.run RestoreMachine.advance (atRest 1)
        (.call (.restore ⟨"nightly", 2⟩ none) :: List.replicate 5 .succeed
          ++ [.cut 1, .call .recoverVolume])).NeverLoses :=
  restore_never_loses_the_volume 1 _
    ⟨fun plan => absurd plan (by decide), trivial, trivial, trivial, trivial, trivial, trivial,
      fun plan => absurd plan (by decide), trivial⟩

end Reliaburger
