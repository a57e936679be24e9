import Reliaburger.Upgrade.RollingOrder

/-! A failed node stops the roll: which pending nodes a tick sends a directive, and what has failed
by then.
-/

namespace Reliaburger

open NodeUpgradeRecord

def NodeUpgradeRecord.Failed (record : NodeUpgradeRecord) : Prop :=
  ∃ reason, record.phase = .failed reason

namespace ClusterUpgradeState

variable {state : ClusterUpgradeState} {control : NodeControl} {context : StepContext}
  {role : NodeRole} {records : List NodeUpgradeRecord} {index slots : Nat}

/-- The group that a tick drives, and whether it may direct new nodes of it. -/
def drives (state : ClusterUpgradeState) (context : StepContext) : Option (NodeRole × Bool) :=
  match state.phase with
  | .upgradingWorkers => some (.worker, true)
  | .upgradingCouncil => some (.council, context.quorumOk)
  | .upgradingLeader => some (.leader, context.quorumOk)
  | _ => none

/-- A failed record means that the run is not under way. -/
def Calm (state : ClusterUpgradeState) : Prop :=
  (∃ record ∈ state.nodes, record.Failed)
    → (∃ reason, state.phase = .paused reason) ∨ state.phase = .completed
      ∨ ∃ reason, state.phase = .aborted reason

/-- The node's retry window is over and its directive fails transiently once more. -/
def Expires (control : NodeControl) (context : StepContext) (role : NodeRole) (index : Nat)
    (record : NodeUpgradeRecord)
    : Prop :=
  record.role = role ∧ record.phase = .pending
  ∧ directiveRetryWindow ≤ (elapsedSince context.now
      ((record.directiveRetry.map (·.firstFailedAt)).getD context.now)).getD 0
  ∧ ((∃ directive reason,
        control.directUpgrade index record.address directive = .error (.transient reason))
    ∨ ∃ version reason,
        control.directRollback index record.address version = .error (.transient reason))

/-- A node whose retry window runs out is the last pending one of its group. -/
def ExpiresLast (control : NodeControl) (context : StepContext) (role : NodeRole)
    : Nat → List NodeUpgradeRecord → Prop
  | _, [] => True
  | index, record :: rest =>
    (Expires control context role index record
      → ∀ later ∈ rest, later.role = role → later.phase ≠ .pending)
    ∧ ExpiresLast control context role (index + 1) rest

/-- In a tick, no retry window runs out while another node of the group may be directed. -/
def RetriesLast (state : ClusterUpgradeState) (control : NodeControl) (context : StepContext)
    : Prop :=
  ∀ role mayDirectNew, state.drives context = some (role, mayDirectNew)
    → state.budget role ≤ 1 ∨ ExpiresLast control context role 0 state.nodes

-- One walk

theorem directPending_settled
    (settled : ∀ record ∈ records, record.role = role → record.phase ≠ .pending)
    : (directPending state control context role index slots records).2 = [] := by
  induction records generalizing index slots with
  | nil => cases slots <;> rfl
  | cons record rest ih =>
    cases slots with
    | zero => rfl
    | succ slots =>
      rw [List.forall_mem_cons] at settled
      rw [directPending, if_pos]
      · exact ih settled.2
      by_cases mine : record.role = role
      · exact .inr (settled.1 mine)
      · exact .inl mine

variable {record : NodeUpgradeRecord}

theorem expires_of_send {reason failure : String}
    (mine : record.role = role) (pending : record.phase = .pending)
    (sent : record.send state control index = .error (.transient reason))
    (failed : (record.recordTransientFailure reason context.now).phase = .failed failure)
    : Expires control context role index record := by
  refine ⟨mine, pending, ?_, ?_⟩
  · by_contra within
    rw [recordTransientFailure, if_neg within] at failed
    rw [show _ = NodeUpgradePhase.pending from pending] at failed
    cases failed
  · rw [send] at sent
    split at sent
    · split at sent
      · exact .inl ⟨_, _, sent⟩
      · cases sent
    · exact .inr ⟨_, _, sent⟩

/-- When a node is sent a directive, no node before it has failed. -/
theorem directPending_unfailed (sound : ∀ record ∈ records, ¬record.Failed)
    (last : slots ≤ 1 ∨ ExpiresLast control context role index records) {sent : Nat}
    (listed : sent ∈ (directPending state control context role index slots records).2)
    {earlier : Nat} (before : index + earlier < sent)
    (found : (directPending state control context role index slots records).1[earlier]?
      = some record)
    : ¬record.Failed := by
  induction records generalizing index slots earlier with
  | nil => cases slots <;> cases listed
  | cons first rest ih =>
    cases slots with
    | zero => cases listed
    | succ slots =>
      rw [List.forall_mem_cons] at sound
      -- The rest of the walk, once the first record is known not to have failed.
      have continues {after : NodeUpgradeRecord} {left : Nat}
          (unfailed : ¬after.Failed) (fewer : left ≤ slots + 1)
          (later : sent ∈ (directPending state control context role (index + 1) left rest).2)
          (found : (after :: (directPending state control context role (index + 1) left
            rest).1)[earlier]? = some record)
          : ¬record.Failed := by
        cases earlier with
        | zero => exact Option.some.inj found ▸ unfailed
        | succ earlier =>
          exact ih sound.2 (last.imp fewer.trans And.right) later (by omega) found
      have itself : sent ≠ index := by omega
      rw [directPending] at listed found
      split at listed
      · next skip => exact continues sound.1 le_rfl listed (by rwa [if_pos skip] at found)
      rename_i mine
      rw [if_neg mine] at found
      rw [not_or, not_not, not_not] at mine
      split at listed
      · rename_i waits
        exact continues sound.1 (Nat.le_succ _) listed (by rwa [if_pos waits] at found)
      rename_i due
      rw [if_neg due] at found
      split at listed
      · rename_i answer
        rw [answer] at found
        refine continues ?_ (Nat.le_succ _) ((List.mem_cons.mp listed).resolve_left itself) found
        rintro ⟨_, failed⟩
        cases failed
      · rename_i reason answer
        rw [answer] at found
        have later := (List.mem_cons.mp listed).resolve_left itself
        refine continues ?_ (Nat.le_succ _) later found
        rintro ⟨failure, failed⟩
        -- Its window ran out: nothing is left to direct.
        rcases last with _ | last
        · obtain rfl : slots = 0 := by omega
          cases rest <;> cases later
        · rw [directPending_settled (last.1 (expires_of_send mine.1 mine.2 answer failed))] at later
          cases later
      · -- The walk stops at a refusal.
        dsimp only at listed
        split at listed
        · exact absurd (List.mem_singleton.mp listed) itself
        · cases listed

-- One tick

/-- A record that is still pending after a probe was not changed by it. -/
theorem judge_cases (probe : NodeProbe) (record : NodeUpgradeRecord)
    : record.judge state context probe = record
      ∨ (record.judge state context probe).phase ≠ .pending := by
  have timeout : record.checkTimeout context.now = record
      ∨ (record.checkTimeout context.now).phase ≠ .pending := by
    refine (checkTimeout_cases record context.now).imp_right ?_
    rintro ⟨⟨_, failed⟩, _⟩ pending
    rw [failed] at pending
    cases pending
  rw [judge]
  repeat' split
  all_goals first | exact timeout | exact .inr (fun pending => by cases pending)

theorem poll_pending {probe : Option NodeProbe}
    (pending : (record.poll state context probe).phase = .pending)
    : record.phase = .pending
      ∧ (record.poll state context probe).directiveRetry = record.directiveRetry
      ∧ (record.poll state context probe).address = record.address := by
  unfold poll at pending ⊢
  split at pending
  · next phase => exact ⟨pending, rfl, rfl⟩
  · next phase => exact ⟨pending, rfl, rfl⟩
  · split at pending
    · rcases checkTimeout_cases record context.now with same | ⟨⟨_, failed⟩, _⟩
      · rw [same] at pending ⊢
        exact ⟨pending, rfl, rfl⟩
      · rw [failed] at pending
        cases pending
    · rename_i probe
      rcases @judge_cases state context probe
        { record with
          fromVersion := record.fromVersion.or (some probe.version)
          platform := record.platform.or probe.platform } with same | moved
      · rw [same] at pending ⊢
        exact ⟨pending, rfl, rfl⟩
      · exact absurd pending moved

/-- Polling leaves the pending records and their retries as they were. -/
theorem ExpiresLast.mapIdx {change : Nat → NodeUpgradeRecord → NodeUpgradeRecord}
    (roles : ∀ index record, (change index record).role = record.role)
    (pending : ∀ index record, (change index record).phase = .pending → record.phase = .pending
      ∧ (change index record).directiveRetry = record.directiveRetry
      ∧ (change index record).address = record.address)
    (last : ExpiresLast control context role index records)
    : ExpiresLast control context role index (records.mapIdx change) := by
  induction records generalizing index change with
  | nil => trivial
  | cons record rest ih =>
    rw [List.mapIdx_cons]
    refine ⟨fun expires => ?_, ih (fun _ _ => roles _ _) (fun _ _ => pending _ _) last.2⟩
    have settled := last.1 ?_
    · intro later listed mine waits
      obtain ⟨_, inRest, rfl⟩ := List.mem_mapIdx.mp listed
      exact settled _ (List.getElem_mem inRest) (roles _ _ ▸ mine) (pending _ _ waits).1
    · obtain ⟨mine, waits, window, answers⟩ := expires
      obtain ⟨before, retry, address⟩ := pending _ _ waits
      rw [retry] at window
      rw [address] at answers
      exact ⟨roles _ _ ▸ mine, before, window, answers⟩

theorem ExpiresLast.polled (last : ExpiresLast control context role 0 state.nodes)
    : ExpiresLast control context role 0 (state.pollGroup control context role) := by
  refine last.mapIdx (fun index record => ?_) fun index record waits => ?_
  · split
    · exact (poll_polled _ record).role
    · rfl
  · split at waits
    · rename_i mine
      rw [if_pos mine]
      exact poll_pending waits
    · rename_i other
      rw [if_neg other]
      exact ⟨waits, rfl, rfl⟩

/-- A tick that drives a group polls it, directs it and settles the run. -/
theorem drive_drives {mayDirectNew : Bool}
    (driven : state.drives context = some (role, mayDirectNew))
    : ∃ next,
        state.drive control context
        = ((state.pollAndDriveGroup control context role mayDirectNew).1.settle role next,
          (state.pollAndDriveGroup control context role mayDirectNew).2) := by
  rw [drives] at driven
  rw [drive]
  split at driven
  case h_4 => cases driven
  all_goals
    rename_i phase
    obtain ⟨rfl, rfl⟩ := Prod.mk.inj (Option.some.inj driven)
    rw [phase]
    exact ⟨_, rfl⟩

/-- A tick that drives no group changes no record and sends nothing. -/
theorem drive_undriven (idle : state.drives context = none)
    : (state.step control context).nodes = state.nodes
      ∧ state.directives control context = [] := by
  rw [drives] at idle
  rw [step, directives, drive]
  split at idle
  case h_4 => split <;> first | exact ⟨rfl, rfl⟩ | contradiction
  all_goals cases idle

theorem firstFailure_none (none : state.firstFailure = none)
    : ∀ record ∈ state.nodes, ¬record.Failed := by
  rintro record listed ⟨_, failed⟩
  have unseen := List.findSome?_eq_none_iff.mp none record listed
  rw [failed] at unseen
  cases unseen

/-- Once a group is driven, a failure pauses the run. -/
theorem settle_paused {next : ClusterUpgradePhase} (failed : ∃ record ∈ state.nodes, record.Failed)
    : ∃ reason, (state.settle role next).phase = .paused reason := by
  obtain ⟨record, listed, failure⟩ := failed
  rw [settle]
  split
  · exact ⟨_, rfl⟩
  · next none => exact absurd failure (firstFailure_none none record listed)

theorem Calm.unfailed (calm : state.Calm) {mayDirectNew : Bool}
    (driven : state.drives context = some (role, mayDirectNew))
    : ∀ record ∈ state.nodes, ¬record.Failed := by
  intro record listed failed
  rw [drives] at driven
  rcases calm ⟨record, listed, failed⟩ with ⟨_, phase⟩ | phase | ⟨_, phase⟩
  all_goals
    rw [phase] at driven
    cases driven

theorem Calm.advance (calm : state.Calm) (event : UpgradeEvent) : (state.advance event).Calm := by
  intro failed
  cases event with
  | tick control context =>
    rw [ClusterUpgradeState.advance] at failed ⊢
    cases driven : state.drives context with
    | none =>
      rw [(drive_undriven driven).1] at failed
      rcases calm failed with ⟨reason, phase⟩ | phase | ⟨reason, phase⟩
      all_goals
        rw [step, drive, phase]
        simp [phase]
    | some group =>
      obtain ⟨next, same⟩ := @drive_drives state control context group.1 group.2 driven
      rw [step, same, settle_nodes] at failed
      rw [step, same]
      exact .inl (settle_paused failed)
  | resume =>
    rw [ClusterUpgradeState.advance, resume] at failed ⊢
    split at failed
    · obtain ⟨record, listed, reason, phase⟩ := failed
      obtain ⟨_, _, rfl⟩ := List.mem_map.mp listed
      rw [resumeRecord] at phase
      split at phase
      · cases phase
      · next sound => exact absurd phase (sound reason)
    · rename_i running
      rcases calm failed with ⟨reason, phase⟩ | phase | ⟨reason, phase⟩
      · exact absurd phase (running reason)
      all_goals simp [phase]

/-- What a tick owes: whenever a pending node is sent a directive, no record had failed before the
tick, none does when the group is polled, and none has by that position; and the tick in which a
failure appears ends paused. -/
structure StopsAtFailure (state : ClusterUpgradeState) (control : NodeControl)
    (context : StepContext)
    : Prop where
  before : state.directives control context ≠ [] → ∀ record ∈ state.nodes, ¬record.Failed
  polled : ∀ role mayDirectNew, state.drives context = some (role, mayDirectNew)
    → state.directives control context ≠ []
    → ∀ record ∈ state.pollGroup control context role, ¬record.Failed
  walked : ∀ sent ∈ state.directives control context, ∀ earlier < sent, ∀ record,
    (state.step control context).nodes[earlier]? = some record → ¬record.Failed
  pauses : (∀ record ∈ state.nodes, ¬record.Failed)
    → (∃ record ∈ (state.step control context).nodes, record.Failed)
    → ∃ reason, (state.step control context).phase = .paused reason

theorem freeSlots_le (mayDirectNew : Bool)
    : state.freeSlots role mayDirectNew records ≤ state.budget role := by
  rw [freeSlots]
  split <;> omega

theorem directPending_zero
    : (directPending state control context role index 0 records).2 = [] := by
  cases records <;> rfl

/-- A group is directed only when nothing of it has failed in the poll. -/
theorem polled_unfailed {mayDirectNew : Bool} (sound : ∀ record ∈ state.nodes, ¬record.Failed)
    (some : 0 < state.freeSlots role mayDirectNew (state.pollGroup control context role))
    : ∀ record ∈ state.pollGroup control context role, ¬record.Failed := by
  rintro record listed ⟨reason, failed⟩
  by_cases mine : record.role = role
  · have failure : hasFailure role (state.pollGroup control context role) = true :=
      List.any_eq_true.mpr ⟨record, listed, by simp [mine, failed]⟩
    rw [freeSlots, failure] at some
    simp at some
  · obtain ⟨_, inside, rfl⟩ := List.mem_mapIdx.mp listed
    split at failed
    · next own => exact mine (by rw [if_pos own]; exact (poll_polled _ _).role.trans own)
    · exact sound _ (List.getElem_mem inside) ⟨reason, failed⟩

theorem Calm.stopsAtFailure (calm : state.Calm) (last : state.RetriesLast control context)
    : state.StopsAtFailure control context := by
  cases driven : state.drives context with
  | none =>
    obtain ⟨same, nothing⟩ := @drive_undriven state control context driven
    refine ⟨fun some => absurd nothing some, fun _ _ _ some => absurd nothing some, ?_, ?_⟩
    · rw [nothing]
      simp
    intro sound failed
    rw [same] at failed
    obtain ⟨record, listed, failure⟩ := failed
    exact absurd failure (sound record listed)
  | some group =>
    obtain ⟨role, mayDirectNew⟩ := group
    obtain ⟨_, same⟩ := @drive_drives state control context role mayDirectNew driven
    have sound := calm.unfailed driven
    have sends : state.directives control context
        = (state.pollAndDriveGroup control context role mayDirectNew).2 := by
      rw [directives, same]
    have polled (some : state.directives control context ≠ [])
        : ∀ record ∈ state.pollGroup control context role, ¬record.Failed := by
      refine @polled_unfailed state control context role mayDirectNew sound
        (Nat.pos_of_ne_zero fun zero => some ?_)
      rw [sends, pollAndDriveGroup, zero]
      exact directPending_zero
    refine ⟨fun _ => sound, ?_, fun sent listed earlier before record found => ?_,
      fun _ failed => ?_⟩
    · intro other _ known
      obtain ⟨rfl, _⟩ := Prod.mk.inj (Option.some.inj (driven.symm.trans known))
      exact polled
    · have unfailed := polled (List.ne_nil_of_mem listed)
      rw [step, same, settle_nodes] at found
      rw [sends] at listed
      exact directPending_unfailed unfailed ((last role mayDirectNew driven).imp
        (freeSlots_le mayDirectNew).trans ExpiresLast.polled) listed (by omega) found
    · rw [step, same, settle_nodes] at failed
      rw [step, same]
      exact settle_paused failed

/-- The condition on a run's events. -/
def UpgradeEvent.RetriesLast (state : ClusterUpgradeState) : UpgradeEvent → Prop
  | .tick control context => state.RetriesLast control context
  | .resume => True

/-- In a run that starts calm and whose ticks leave no retry window to run out before another
directive, every tick stops at a failure. -/
theorem failed_node_stops_the_roll (start : ClusterUpgradeState) (events : List UpgradeEvent)
    (calm : start.Calm) (meets : Runs.Meets advance UpgradeEvent.RetriesLast start events)
    : ∀ before control context after, events = before ++ .tick control context :: after
      → (Runs.run advance start before).StopsAtFailure control context := by
  rintro before _ _ _ rfl
  have reached : (Runs.run advance start before).Calm :=
    @Runs.run_invariant _ _ advance start Calm (fun _ event holds => holds.advance event) before
      calm
  rw [Runs.meets_append] at meets
  exact reached.stopsAtFailure meets.2.1

def twoWorkers : ClusterUpgradeState :=
  { sampleRollback with
    parallel := 2
    nodes := [⟨"a", "a:1", .worker, none, none, .pending, none, none⟩,
      ⟨"b", "b:1", .worker, none, none, .pending, none, none⟩] }

/-- The workers do not answer probes; a directive is answered by the node's address. -/
def answering (answer : String → Except DirectiveError Unit) : NodeControl where
  probe := fun _ _ => none
  directUpgrade := fun _ address _ => answer address
  directRollback := fun _ address _ => answer address

/-- A directive to a worker that isn't reached fails transiently. -/
def reaching (reached : String → Bool) : NodeControl :=
  answering (fun address => if reached address then .ok () else .error (.transient "timed out"))

def contextAt (now : SystemTime) : StepContext :=
  ⟨"l", true, BTreeSet.ofItems [], now⟩

def unreachedTick : UpgradeEvent :=
  .tick (reaching (fun _ => false)) (contextAt 0)

/-- A run that has directed nothing yet is calm. -/
theorem calm_of_pending (pending : ∀ record ∈ state.nodes, record.phase = .pending)
    : state.Calm := by
  rintro ⟨record, listed, _, failed⟩
  rw [pending record listed] at failed
  cases failed

/-- The first worker's retry window runs out, and the second is directed in the same tick. -/
theorem sibling_directed_past_failure
    : ¬∀ (start : ClusterUpgradeState) (events : List UpgradeEvent) (control : NodeControl)
        (context : StepContext), start.Calm
        → (Runs.run advance start events).StopsAtFailure control context := by
  intro always
  have stops := always twoWorkers [unreachedTick, unreachedTick] (reaching (· == "b:1"))
    (contextAt (seconds 130)) (calm_of_pending (by decide))
  have sent : 1 ∈ (Runs.run advance twoWorkers [unreachedTick, unreachedTick]).directives
      (reaching (· == "b:1")) (contextAt (seconds 130)) := by
    decide +kernel
  have failed : ((Runs.run advance twoWorkers [unreachedTick, unreachedTick]).step
      (reaching (· == "b:1")) (contextAt (seconds 130))).nodes[0]?.map (·.phase)
        = some (.failed "directive to a still failing after 2 attempts over 130s: timed out") := by
    decide +kernel
  obtain ⟨record, found, phase⟩ := Option.map_eq_some_iff.mp failed
  exact stops.walked 1 sent 0 Nat.one_pos record found ⟨_, phase⟩

/-- Three workers may go at once, and the second one refuses its directive. -/
def threeWorkers : ClusterUpgradeState :=
  { twoWorkers with
    parallel := 3
    nodes := twoWorkers.nodes ++ [⟨"c", "c:1", .worker, none, none, .pending, none, none⟩] }

def refusing : NodeControl :=
  answering (fun address => if address = "b:1" then .error (.refused "pinned") else .ok ())

/-- The second worker's refusal fails it, and the third one is not sent a directive. -/
theorem refusal_stops_the_roll
    : let state := Runs.run advance threeWorkers [unreachedTick]
      state.directives refusing (contextAt 0) = [0, 1]
      ∧ (state.step refusing (contextAt 0)).phase
        = .paused "directive to b refused: pinned"
      ∧ state.StopsAtFailure refusing (contextAt 0) := by
  refine ⟨by decide +kernel, by decide +kernel, ?_⟩
  refine failed_node_stops_the_roll threeWorkers
    [unreachedTick, .tick refusing (contextAt 0)] (calm_of_pending (by decide)) ?_
    [unreachedTick] _ _ [] rfl
  refine ⟨fun role mayDirectNew driven => ?_, fun role mayDirectNew driven => .inr ?_, trivial⟩
  · cases driven
  have permanent (index : Nat) (record : NodeUpgradeRecord)
      : ¬Expires refusing (contextAt 0) role index record := by
    rintro ⟨_, _, _, ⟨_, _, answer⟩ | ⟨_, _, answer⟩⟩
    all_goals
      simp only [refusing, answering] at answer
      split at answer <;> cases answer
  exact ⟨fun expires => absurd expires (permanent _ _),
    fun expires => absurd expires (permanent _ _),
    fun expires => absurd expires (permanent _ _), trivial⟩

end ClusterUpgradeState

end Reliaburger
