import Reliaburger.Library.Runs
import Reliaburger.Upgrade.Orchestrator

/-! The rolling order: through any ticks, pauses and resumes, no council member moves before every
worker is healthy, the leader moves last, and each group stays within its budget.
-/

namespace Reliaburger

open NodeUpgradePhase

namespace NodeUpgradeRecord

variable {state : ClusterUpgradeState} {context : StepContext} {record : NodeUpgradeRecord}

/-- A timeout fails the record or leaves it alone. -/
theorem checkTimeout_cases (record : NodeUpgradeRecord) (now : SystemTime)
    : record.checkTimeout now = record
      ∨ (∃ reason, (record.checkTimeout now).phase = .failed reason)
        ∧ (record.checkTimeout now).role = record.role := by
  rw [checkTimeout]
  split
  · exact .inr ⟨⟨_, rfl⟩, rfl⟩
  · exact .inl rfl

/-- What polling can make of a record: it stays in its phase, fails, is found healthy, or goes
from directed to verifying. -/
inductive Polled (before after : NodeUpgradeRecord) : Prop
  | kept (role : after.role = before.role) (phase : after.phase = before.phase)
  | failed (role : after.role = before.role) (reason : String)
    (phase : after.phase = .failed reason)
  | healthy (role : after.role = before.role) (phase : after.phase = .healthy)
  | verifying (role : after.role = before.role) (directed : before.phase = .directed)
    (phase : after.phase = .verifying)

theorem Polled.role {before after : NodeUpgradeRecord} (polled : Polled before after)
    : after.role = before.role := by
  cases polled <;> assumption

theorem checkTimeout_polled (record : NodeUpgradeRecord) (now : SystemTime)
    : Polled record (record.checkTimeout now) := by
  rcases checkTimeout_cases record now with same | ⟨⟨reason, phase⟩, role⟩
  · rw [same]
    exact .kept rfl rfl
  · exact .failed role reason phase

theorem judge_polled (probe : NodeProbe) (record : NodeUpgradeRecord)
    : Polled record (record.judge state context probe) := by
  rw [judge]
  split
  · exact .failed rfl _ rfl
  split
  · split
    · exact .failed rfl _ rfl
    split
    · exact .healthy rfl rfl
    split
    · next directed => exact .verifying rfl directed rfl
    · exact checkTimeout_polled record context.now
  · split
    · rename_i directed
      split
      · exact .verifying rfl directed rfl
      · exact checkTimeout_polled record context.now
    · split
      · exact .failed rfl _ rfl
      · exact checkTimeout_polled record context.now
    · split
      · exact .failed rfl _ rfl
      · exact checkTimeout_polled record context.now
    · exact checkTimeout_polled record context.now

theorem poll_polled (probe : Option NodeProbe) (record : NodeUpgradeRecord)
    : Polled record (record.poll state context probe) := by
  unfold poll
  split
  · exact .kept rfl rfl
  · exact .kept rfl rfl
  · split
    · exact checkTimeout_polled record context.now
    rename_i probe
    -- The fields filled in from the probe are neither the role nor the phase.
    have judged := @judge_polled state context probe
      { record with
        fromVersion := record.fromVersion.or (some probe.version)
        platform := record.platform.or probe.platform }
    cases judged with
    | kept role phase => exact .kept role phase
    | failed role reason phase => exact .failed role reason phase
    | healthy role phase => exact .healthy role phase
    | verifying role directed phase => exact .verifying role directed phase

theorem Polled.inFlight {before after : NodeUpgradeRecord} (polled : Polled before after)
    (moving : after.phase.isInFlight = true)
    : before.phase.isInFlight = true := by
  cases polled with
  | kept role phase => rwa [phase] at moving
  | failed role reason phase => rw [phase] at moving; cases moving
  | healthy role phase => rw [phase] at moving; cases moving
  | verifying role directed phase => rw [directed]; rfl

/-- Polling directs no node. -/
theorem Polled.directed {before after : NodeUpgradeRecord} (polled : Polled before after)
    (directed : after.phase = .directed)
    : before.phase = .directed := by
  cases polled with
  | kept role phase => rwa [phase] at directed
  | failed role reason phase => rw [phase] at directed; cases directed
  | healthy role phase => rw [phase] at directed; cases directed
  | verifying role was phase => exact was

theorem recordTransientFailure_cases (reason : String) (now : SystemTime)
    : (record.recordTransientFailure reason now).role = record.role
      ∧ ((record.recordTransientFailure reason now).phase = record.phase
        ∨ ∃ failure, (record.recordTransientFailure reason now).phase = .failed failure) := by
  rw [recordTransientFailure]
  split
  · exact ⟨rfl, .inr ⟨_, rfl⟩⟩
  · exact ⟨rfl, .inl rfl⟩

end NodeUpgradeRecord

namespace ClusterUpgradeState

open NodeUpgradeRecord

variable {state : ClusterUpgradeState} {control : NodeControl} {context : StepContext}
  {role other : NodeRole}

-- The frame of one group's tick

/-- A tick of the group `role` keeps every role, and every record of another group. -/
abbrev Driven (role : NodeRole) : List NodeUpgradeRecord → List NodeUpgradeRecord → Prop :=
  List.Forall₂ (fun before after =>
    after.role = before.role ∧ (before.role ≠ role → after = before))

theorem forall₂_mapIdx {Item : Type} {related : Item → Item → Prop} (items : List Item)
    (change : Nat → Item → Item) (relates : ∀ index item, related item (change index item))
    : List.Forall₂ related items (items.mapIdx change) := by
  induction items generalizing change with
  | nil => exact .nil
  | cons item rest ih =>
    rw [List.mapIdx_cons]
    exact .cons (relates 0 item) (ih _ fun index item => relates (index + 1) item)

/-- What polling makes of every record, by position. -/
theorem pollGroup_polled (state : ClusterUpgradeState) (control : NodeControl)
    (context : StepContext) (role : NodeRole)
    : List.Forall₂ (fun before after => Polled before after ∧ (before.role ≠ role → after = before))
        state.nodes (state.pollGroup control context role) := by
  refine forall₂_mapIdx _ _ fun index record => ?_
  split
  · next same => exact ⟨poll_polled _ record, fun different => absurd same different⟩
  · exact ⟨.kept rfl rfl, fun _ => rfl⟩

/-- Directing changes only pending records of the group, and stops after `slots` of them. -/
theorem directPending_driven (records : List NodeUpgradeRecord) (index slots : Nat)
    : Driven role records (directPending state control context role index slots records).1 := by
  induction records generalizing index slots with
  | nil => cases slots <;> exact .nil
  | cons record rest ih =>
    have unchanged (records : List NodeUpgradeRecord) : Driven role records records :=
      List.forall₂_same.mpr fun _ _ => ⟨rfl, fun _ => rfl⟩
    cases slots with
    | zero => exact unchanged _
    | succ slots =>
      rw [directPending]
      split
      · exact .cons ⟨rfl, fun _ => rfl⟩ (ih _ _)
      rename_i pending
      rw [not_or, not_not] at pending
      split
      · exact .cons ⟨rfl, fun _ => rfl⟩ (ih _ _)
      split
      · exact .cons ⟨rfl, fun different => absurd pending.1 different⟩ (ih _ _)
      · rename_i reason _
        exact .cons ⟨(recordTransientFailure_cases reason context.now).1,
          fun different => absurd pending.1 different⟩ (ih _ _)
      · exact .cons ⟨rfl, fun different => absurd pending.1 different⟩ (unchanged rest)

theorem forall₂_comp {Item : Type} {first second whole : Item → Item → Prop}
    {start middle finish : List Item} (left : List.Forall₂ first start middle)
    (right : List.Forall₂ second middle finish)
    (compose : ∀ before between after, first before between → second between after
      → whole before after)
    : List.Forall₂ whole start finish := by
  induction left generalizing finish with
  | nil =>
    cases right
    exact .nil
  | cons head _ ih =>
    cases right with
    | cons head' rest' => exact .cons (compose _ _ _ head head') (ih rest')

theorem pollAndDriveGroup_driven (mayDirectNew : Bool)
    : Driven role state.nodes
        (state.pollAndDriveGroup control context role mayDirectNew).1.nodes := by
  refine forall₂_comp (pollGroup_polled state control context role)
    (directPending_driven _ _ _) ?_
  intro before between after polled directed
  refine ⟨directed.1.trans polled.1.role, fun different => ?_⟩
  rw [← polled.2 different]
  exact directed.2 (polled.1.role ▸ different)

def AllIn (phase : NodeUpgradePhase) (role : NodeRole) (nodes : List NodeUpgradeRecord) : Prop :=
  ∀ record ∈ nodes, record.role = role → record.phase = phase

theorem Driven.before {before after : List NodeUpgradeRecord} (driven : Driven role before after)
    {record : NodeUpgradeRecord} (member : record ∈ after)
    : ∃ old ∈ before, record.role = old.role ∧ (old.role ≠ role → record = old) := by
  induction driven with
  | nil => cases member
  | cons head _ ih =>
    rcases List.mem_cons.mp member with rfl | later
    · exact ⟨_, List.mem_cons_self, head⟩
    · obtain ⟨old, listed, same⟩ := ih later
      exact ⟨old, List.mem_cons_of_mem _ listed, same⟩

/-- Other groups stay in their phase. -/
theorem AllIn.driven {before after : List NodeUpgradeRecord} {phase : NodeUpgradePhase}
    (holds : AllIn phase other before) (driven : Driven role before after)
    (different : other ≠ role)
    : AllIn phase other after := by
  intro record member ofOther
  obtain ⟨old, listed, sameRole, same⟩ := driven.before member
  have oldRole : old.role = other := sameRole.symm.trans ofOther
  rw [same (oldRole ▸ different)]
  exact holds old listed oldRole

-- Budgets

theorem countP_le_of_forall₂ {Item : Type} {related : Item → Item → Prop} {p : Item → Bool}
    {before after : List Item} (all : List.Forall₂ related before after)
    (reflects : ∀ old new, related old new → p new = true → p old = true)
    : after.countP p ≤ before.countP p := by
  induction all with
  | nil => exact Nat.le_refl _
  | @cons old new rest rest' head _ ih =>
    rw [List.countP_cons, List.countP_cons]
    by_cases moved : p new = true
    · rw [if_pos moved, if_pos (reflects old new head moved)]
      omega
    · rw [if_neg moved]
      split <;> omega

theorem inFlight_pollGroup (state : ClusterUpgradeState) (control : NodeControl)
    (context : StepContext) (role : NodeRole)
    : inFlight role (state.pollGroup control context role) ≤ inFlight role state.nodes := by
  refine countP_le_of_forall₂ (pollGroup_polled state control context role) ?_
  intro old new polled moving
  rw [Bool.and_eq_true, decide_eq_true_eq] at moving ⊢
  exact ⟨polled.1.role.symm.trans moving.1, polled.1.inFlight moving.2⟩

/-- At most `slots` more nodes are in flight. -/
theorem inFlight_directPending (records : List NodeUpgradeRecord) (index slots : Nat)
    : inFlight role (directPending state control context role index slots records).1
      ≤ inFlight role records + slots := by
  induction records generalizing index slots with
  | nil => cases slots <;> exact Nat.zero_le _
  | cons record rest ih =>
    cases slots with
    | zero => exact Nat.le_refl _
    | succ slots =>
      rw [directPending]
      simp only [inFlight] at ih ⊢
      split
      · have later := ih (index + 1) (slots + 1)
        rw [List.countP_cons, List.countP_cons]
        omega
      rename_i pending
      rw [not_or, not_not, not_not] at pending
      have later := ih (index + 1) slots
      have idle (failed : NodeUpgradeRecord) (rest : List NodeUpgradeRecord)
          (stays : failed.phase = record.phase ∨ ∃ reason, failed.phase = .failed reason)
          : (failed :: rest).countP
              (fun record => record.role = role && record.phase.isInFlight)
            = rest.countP
              (fun record => record.role = role && record.phase.isInFlight) := by
        refine List.countP_cons_of_neg ?_
        rcases stays with same | ⟨reason, failed⟩
        · simp [same, pending.2, isInFlight]
        · simp [failed, isInFlight]
      rw [idle record rest (.inl rfl)]
      split
      · rw [idle record _ (.inl rfl)]
        omega
      split
      · rw [List.countP_cons]
        split <;> omega
      · rename_i reason _
        rw [idle _ _ (recordTransientFailure_cases reason context.now).2]
        omega
      · rw [idle _ rest (.inr ⟨_, rfl⟩)]
        omega

def WithinBudget (state : ClusterUpgradeState) : Prop :=
  ∀ role, inFlight role state.nodes ≤ state.budget role

theorem WithinBudget.pollAndDriveGroup (within : state.WithinBudget) (mayDirectNew : Bool)
    : (state.pollAndDriveGroup control context role mayDirectNew).1.WithinBudget := by
  intro other
  show inFlight other (state.pollAndDriveGroup control context role mayDirectNew).1.nodes
    ≤ state.budget other
  by_cases same : other = role
  · subst same
    have polled := inFlight_pollGroup state control context other
    have started := within other
    refine (inFlight_directPending _ _ _).trans ?_
    rw [freeSlots]
    split <;> omega
  · refine (countP_le_of_forall₂ (pollAndDriveGroup_driven mayDirectNew) ?_).trans (within other)
    intro old new driven moving
    rw [Bool.and_eq_true, decide_eq_true_eq] at moving ⊢
    rwa [driven.2 (driven.1 ▸ moving.1 ▸ same)] at moving

-- The order of the groups

theorem groupDone_iff : state.groupDone role = true ↔ AllIn .healthy role state.nodes := by
  rw [groupDone, List.all_eq_true]
  simp only [List.mem_filter, decide_eq_true_eq, and_imp, AllIn]

/-- The council has not moved or the workers are healthy; the leader has not moved or everyone
else is healthy. -/
structure Ordered (nodes : List NodeUpgradeRecord) : Prop where
  council : AllIn .pending .council nodes ∨ AllIn .healthy .worker nodes
  leader
    : AllIn .pending .leader nodes
      ∨ AllIn .healthy .worker nodes ∧ AllIn .healthy .council nodes

/-- What the phase of a run says about the groups before and after the current one. -/
def InOrder (state : ClusterUpgradeState) : Prop :=
  match state.phase with
  | .preparing | .upgradingWorkers =>
    AllIn .pending .council state.nodes ∧ AllIn .pending .leader state.nodes
  | .upgradingCouncil => AllIn .healthy .worker state.nodes ∧ AllIn .pending .leader state.nodes
  | .transferringLeadership | .upgradingLeader =>
    AllIn .healthy .worker state.nodes ∧ AllIn .healthy .council state.nodes
  | .completed => ∀ record ∈ state.nodes, record.phase = .healthy
  | .paused _ | .aborted _ => Ordered state.nodes

theorem InOrder.ordered (inOrder : state.InOrder) : Ordered state.nodes := by
  unfold InOrder at inOrder
  split at inOrder
  · exact ⟨.inl inOrder.1, .inl inOrder.2⟩
  · exact ⟨.inl inOrder.1, .inl inOrder.2⟩
  · exact ⟨.inr inOrder.1, .inl inOrder.2⟩
  · exact ⟨.inr inOrder.1, .inr inOrder⟩
  · exact ⟨.inr inOrder.1, .inr inOrder⟩
  · have healthy (role : NodeRole) : AllIn .healthy role state.nodes :=
      fun record member _ => inOrder record member
    exact ⟨.inr (healthy _), .inr ⟨healthy _, healthy _⟩⟩
  · exact inOrder
  · exact inOrder

/-- After a group's tick the run pauses, moves on with the group healthy, or stays. -/
theorem settle_inOrder {next : ClusterUpgradePhase} (here : state.InOrder)
    (moves : AllIn .healthy role state.nodes → ({ state with phase := next }).InOrder)
    : (state.settle role next).InOrder := by
  rw [settle]
  split
  · exact here.ordered
  split
  · next done => exact moves (groupDone_iff.mp done)
  · exact here

theorem allHealthy {nodes : List NodeUpgradeRecord} (workers : AllIn .healthy .worker nodes)
    (council : AllIn .healthy .council nodes) (leader : AllIn .healthy .leader nodes)
    : ∀ record ∈ nodes, record.phase = .healthy := by
  intro record member
  cases role : record.role with
  | worker => exact workers record member role
  | council => exact council record member role
  | leader => exact leader record member role

theorem InOrder.step (inOrder : state.InOrder) (control : NodeControl) (context : StepContext)
    : (state.step control context).InOrder := by
  have kept (role : NodeRole) (mayDirectNew : Bool) {phase : NodeUpgradePhase} {other : NodeRole}
      (holds : AllIn phase other state.nodes) (different : other ≠ role)
      : AllIn phase other (state.pollAndDriveGroup control context role mayDirectNew).1.nodes :=
    holds.driven (pollAndDriveGroup_driven mayDirectNew) different
  rw [ClusterUpgradeState.step, drive]
  unfold InOrder at inOrder
  split at inOrder
  · rename_i phase
    simp only [phase]
    exact inOrder
  · rename_i phase
    simp only [phase]
    have council := kept .worker true inOrder.1 (by decide)
    have leader := kept .worker true inOrder.2 (by decide)
    refine settle_inOrder ?_ fun workers => ?_
    · simp only [InOrder, pollAndDriveGroup, phase]
      exact ⟨council, leader⟩
    · exact ⟨workers, leader⟩
  · rename_i phase
    simp only [phase]
    have workers := kept .council context.quorumOk inOrder.1 (by decide)
    have leader := kept .council context.quorumOk inOrder.2 (by decide)
    refine settle_inOrder ?_ fun council => ?_
    · simp only [InOrder, pollAndDriveGroup, phase]
      exact ⟨workers, leader⟩
    split
    · exact ⟨workers, council⟩
    rename_i leaderless
    refine allHealthy workers council fun record member isLeader => ?_
    exact absurd (List.any_eq_true.mpr ⟨record, member, by simp [isLeader]⟩) leaderless
  · rename_i phase
    simp only [phase]
    exact inOrder
  · rename_i phase
    simp only [phase]
    have workers := kept .leader context.quorumOk inOrder.1 (by decide)
    have council := kept .leader context.quorumOk inOrder.2 (by decide)
    refine settle_inOrder ?_ fun leader => allHealthy workers council leader
    simp only [InOrder, pollAndDriveGroup, phase]
    exact ⟨workers, council⟩
  · next phase => simpa only [phase, InOrder] using inOrder
  · next phase => simpa only [phase, InOrder] using inOrder
  · next phase => simpa only [phase, InOrder] using inOrder

theorem resumeRecord_role (record : NodeUpgradeRecord)
    : (resumeRecord record).role = record.role := by
  rw [resumeRecord]
  split <;> rfl

/-- A record that is not failed keeps its phase. -/
theorem resumeRecord_phase {record : NodeUpgradeRecord}
    (sound : ∀ reason, record.phase ≠ .failed reason)
    : (resumeRecord record).phase = record.phase := by
  rw [resumeRecord]
  split
  · next reason failed => exact absurd failed (sound reason)
  · rfl

theorem AllIn.resumed {nodes : List NodeUpgradeRecord} {phase : NodeUpgradePhase}
    (holds : AllIn phase role nodes) (sound : ∀ reason, phase ≠ .failed reason)
    : AllIn phase role (nodes.map resumeRecord) := by
  intro record member ofRole
  obtain ⟨old, listed, rfl⟩ := List.mem_map.mp member
  rw [resumeRecord_role] at ofRole
  have before := holds old listed ofRole
  rw [resumeRecord_phase fun reason => before ▸ sound reason, before]

theorem InOrder.resume (inOrder : state.InOrder) : state.resume.InOrder := by
  rw [ClusterUpgradeState.resume]
  split
  · have ordered := inOrder.ordered
    have council := ordered.council.imp (AllIn.resumed · (by simp)) (AllIn.resumed · (by simp))
    have leader := ordered.leader.imp (AllIn.resumed · (by simp))
      fun others => And.intro (others.1.resumed (by simp)) (others.2.resumed (by simp))
    dsimp only
    split
    · rename_i undone
      rw [Bool.not_eq_true', ← Bool.not_eq_true, groupDone_iff] at undone
      exact ⟨council.resolve_right undone, leader.resolve_right fun others => undone others.1⟩
    rename_i workers
    rw [Bool.not_eq_true', Bool.not_eq_false, groupDone_iff] at workers
    split
    · rename_i undone
      rw [Bool.not_eq_true', ← Bool.not_eq_true, groupDone_iff] at undone
      exact ⟨workers, leader.resolve_right fun others => undone others.2⟩
    · rename_i council
      rw [Bool.not_eq_true', Bool.not_eq_false, groupDone_iff] at council
      exact ⟨workers, council⟩
  · exact inOrder

-- Whole runs

theorem WithinBudget.settle (within : state.WithinBudget) (next : ClusterUpgradePhase)
    : (state.settle role next).WithinBudget := by
  rw [ClusterUpgradeState.settle]
  split
  · exact within
  · split <;> exact within

theorem WithinBudget.step (within : state.WithinBudget) (control : NodeControl)
    (context : StepContext)
    : (state.step control context).WithinBudget := by
  rw [ClusterUpgradeState.step, drive]
  split
  · exact within
  · exact within
  · exact within
  · exact within
  · exact (within.pollAndDriveGroup true).settle _
  · exact (within.pollAndDriveGroup context.quorumOk).settle _
  · exact within
  · exact (within.pollAndDriveGroup context.quorumOk).settle _

theorem WithinBudget.resume (within : state.WithinBudget) : state.resume.WithinBudget := by
  rw [ClusterUpgradeState.resume]
  split
  · intro role
    refine le_trans ?_ (within role)
    rw [inFlight, List.countP_map]
    refine List.countP_mono_left fun record _ moving => ?_
    rw [Function.comp_apply, Bool.and_eq_true, decide_eq_true_eq, resumeRecord_role] at moving
    rw [Bool.and_eq_true, decide_eq_true_eq]
    refine ⟨moving.1, ?_⟩
    rw [← moving.2, resumeRecord]
    split
    · next failed => rw [resumeRecord, failed] at moving; cases moving.2
    · rfl
  · exact within

theorem settle_parallel (next : ClusterUpgradePhase)
    : (state.settle role next).parallel = state.parallel := by
  rw [settle]
  split
  · rfl
  · split <;> rfl

theorem settle_nodes (next : ClusterUpgradePhase)
    : (state.settle role next).nodes = state.nodes := by
  rw [settle]
  split
  · rfl
  · split <;> rfl

theorem step_parallel (control : NodeControl) (context : StepContext)
    : (state.step control context).parallel = state.parallel := by
  rw [step, drive]
  split <;> first | rfl | rw [settle_parallel]; rfl

theorem resume_parallel : state.resume.parallel = state.parallel := by
  rw [resume]
  split <;> rfl

/-- Without a slot nothing is directed. -/
theorem pollAndDriveGroup_gated
    : (state.pollAndDriveGroup control context role false).1.nodes
      = state.pollGroup control context role := by
  show (directPending state control context role 0 0 (state.pollGroup control context role)).1 = _
  cases state.pollGroup control context role <;> rfl

/-- Outside the workers, a directed record was directed before. -/
def Gated (before after : NodeUpgradeRecord) : Prop :=
  before.role ≠ .worker → after.phase = .directed → before.phase = .directed

/-- While the council can spare no member, no node of the council is newly directed, nor the
leader. -/
theorem step_gated (control : NodeControl) (held : context.quorumOk = false)
    : List.Forall₂ Gated state.nodes (state.step control context).nodes := by
  have unchanged : List.Forall₂ Gated state.nodes state.nodes :=
    List.forall₂_same.mpr fun _ _ _ directed => directed
  have polled (role : NodeRole)
      : List.Forall₂ Gated state.nodes (state.pollGroup control context role) :=
    (pollGroup_polled state control context role).imp fun _ _ polled _ directed =>
      polled.1.directed directed
  rw [step, drive]
  split
  · exact unchanged
  · exact unchanged
  · exact unchanged
  · exact unchanged
  · rw [settle_nodes]
    refine (pollAndDriveGroup_driven true).imp fun before after driven different directed => ?_
    rwa [driven.2 different] at directed
  · rw [settle_nodes, held, pollAndDriveGroup_gated]
    exact polled .council
  · exact unchanged
  · rw [settle_nodes, held, pollAndDriveGroup_gated]
    exact polled .leader

/-- A tick of the driver, or an operator's resume. -/
inductive UpgradeEvent where
  | tick (control : NodeControl) (context : StepContext)
  | resume

def advance (state : ClusterUpgradeState) : UpgradeEvent → ClusterUpgradeState
  | .tick control context => state.step control context
  | .resume => state.resume

structure Rolling (parallel : Nat) (state : ClusterUpgradeState) : Prop where
  inOrder : state.InOrder
  within : state.WithinBudget
  batch : state.parallel = parallel

theorem Rolling.advance {parallel : Nat} (rolling : state.Rolling parallel) (event : UpgradeEvent)
    : (state.advance event).Rolling parallel := by
  cases event with
  | tick control context =>
    exact ⟨rolling.inOrder.step control context, rolling.within.step control context,
      (step_parallel control context).trans rolling.batch⟩
  | resume =>
    exact ⟨rolling.inOrder.resume, rolling.within.resume, resume_parallel.trans rolling.batch⟩

theorem rolling_start (preparing : state.phase = .preparing)
    (pending : ∀ record ∈ state.nodes, record.phase = .pending)
    : state.Rolling state.parallel := by
  refine ⟨?_, fun role => ?_, rfl⟩
  · rw [InOrder, preparing]
    exact ⟨fun record member _ => pending record member,
      fun record member _ => pending record member⟩
  · have idle : inFlight role state.nodes = 0 :=
      List.countP_eq_zero.mpr fun record member => by
        simp [pending record member, isInFlight]
    omega

/-- The rolling order, in every state of every run. -/
theorem rolling_order (start : ClusterUpgradeState) (events : List UpgradeEvent)
    (preparing : start.phase = .preparing)
    (pending : ∀ record ∈ start.nodes, record.phase = .pending)
    : let state := Runs.run advance start events
      (∀ record ∈ state.nodes, record.role = .council → record.phase ≠ .pending
        → AllIn .healthy .worker state.nodes)
      ∧ (∀ record ∈ state.nodes, record.role = .leader → record.phase ≠ .pending
        → AllIn .healthy .worker state.nodes ∧ AllIn .healthy .council state.nodes)
      ∧ inFlight .worker state.nodes ≤ max 1 start.parallel
      ∧ inFlight .council state.nodes ≤ 1
      ∧ inFlight .leader state.nodes ≤ 1
      ∧ (∀ control context, context.quorumOk = false
        → ∀ before after,
          (before, after) ∈ state.nodes.zip (state.step control context).nodes
          → before.role ≠ .worker → after.phase = .directed → before.phase = .directed)
      ∧ (state.phase = .completed → ∀ record ∈ state.nodes, record.phase = .healthy) := by
  intro state
  have rolling : state.Rolling start.parallel :=
    @Runs.run_invariant _ _ advance start (Rolling start.parallel)
      (fun _ event holds => holds.advance event) events (rolling_start preparing pending)
  have ordered := rolling.inOrder.ordered
  have workers := rolling.within .worker
  rw [budget, if_pos rfl, rolling.batch, max_comm] at workers
  refine ⟨?_, ?_, workers, rolling.within .council, rolling.within .leader, ?_, ?_⟩
  · intro record member isCouncil moved
    exact ordered.council.resolve_left fun pending => moved (pending record member isCouncil)
  · intro record member isLeader moved
    exact ordered.leader.resolve_left fun pending => moved (pending record member isLeader)
  · intro control context held before after paired different directed
    exact (List.forall₂_iff_zip.mp (step_gated control held)).2 paired different directed
  · intro completed record member
    have inOrder := rolling.inOrder
    rw [InOrder, completed] at inOrder
    exact inOrder record member

/-- A rollback of one worker, one council member and the leader. -/
def sampleRollback : ClusterUpgradeState where
  upgradeId := "run"
  targetVersion := ⟨"v0.1.0"⟩
  binaries := []
  parallel := 1
  direction := .rollback
  phase := .preparing
  registryAddress := ""
  allowDowngrade := false
  nodes := [⟨"w", "w:1", .worker, none, none, .pending, none, none⟩,
    ⟨"c", "c:1", .council, none, none, .pending, none, none⟩,
    ⟨"l", "l:1", .leader, none, none, .pending, none, none⟩]

/-- A tick in which every node already runs the target and is back in gossip. -/
def settledTick : UpgradeEvent :=
  .tick
    { probe := fun _ _ => some ⟨⟨"v0.1.0"⟩, true, false, [], none, none⟩
      directUpgrade := fun _ _ _ => .ok ()
      directRollback := fun _ _ _ => .ok () }
    ⟨"l", true, BTreeSet.ofItems ["w", "c"], 0⟩

/-- The walk ends with every node healthy. -/
theorem sampleRollback_completes
    : (Runs.run advance sampleRollback (List.replicate 5 settledTick)).phase = .completed
      ∧ ∀ record ∈ (Runs.run advance sampleRollback (List.replicate 5 settledTick)).nodes,
          record.phase = .healthy := by
  have completed
      : (Runs.run advance sampleRollback (List.replicate 5 settledTick)).phase = .completed := by
    decide +kernel
  obtain ⟨_, _, _, _, _, _, healthy⟩ :=
    rolling_order sampleRollback (List.replicate 5 settledTick) rfl (by
      simp [sampleRollback])
  exact ⟨completed, healthy completed⟩

end ClusterUpgradeState

end Reliaburger
