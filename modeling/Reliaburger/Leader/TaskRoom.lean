import Reliaburger.Cluster.QuotaCap

/-! How many tasks of a job fit a namespace's quota, and whether a number of them is refused: two
questions about one ledger, asked at different moments of a tick.
-/

namespace Reliaburger.QuotaLedger

variable {ledger : QuotaLedger} {ns : String} {perTask : Resources}

/-- The tasks fit every limit that is below the largest value of its counter. -/
def FitsBelow (ledger : QuotaLedger) (ns : String) (perTask : Resources) (tasks : Nat) : Prop :=
  ∀ quota resource limit, ledger.quotas[ns]? = some quota → quota.limit resource = some limit
    → limit < resource.cap
    → 0 < perTask.amount resource
    → (ledger.used ns).amount resource + perTask.amount resource * tasks ≤ limit

/-- The tasks would run a counter past its largest value, which is also its limit. -/
def RunsOver (ledger : QuotaLedger) (ns : String) (perTask : Resources) (tasks : Nat) : Prop :=
  ∃ quota resource, ledger.quotas[ns]? = some quota
    ∧ quota.limit resource = some resource.cap
    ∧ 0 < perTask.amount resource
    ∧ resource.cap < (ledger.used ns).amount resource + perTask.amount resource * tasks

/-- A limited resource that the tasks leave alone is already above its limit. -/
def StandsOver (ledger : QuotaLedger) (ns : String) (perTask : Resources) : Prop :=
  ∃ quota resource limit, ledger.quotas[ns]? = some quota
    ∧ quota.limit resource = some limit
    ∧ limit < resource.cap
    ∧ perTask.amount resource = 0
    ∧ limit < (ledger.used ns).amount resource

/-- Room is counted in exact numbers, and only for what the tasks use. -/
theorem le_roomForTasks_iff {tasks : Nat} (some : 0 < tasks) (small : tasks < u32Size)
    : tasks ≤ ledger.roomForTasks ns perTask
      ↔ ledger.FitsBelow ns perTask tasks ∧ ¬ledger.RunsOver ns perTask tasks := by
  have below : tasks ≤ u64Size - 1 := by
    simp only [u32Size, u64Size] at small ⊢
    omega
  cases declared : ledger.quotas[ns]? with
  | none => simpa [roomForTasks, FitsBelow, RunsOver, declared] using below
  | some quota =>
    rw [le_roomForTasks declared]
    constructor
    · intro room
      constructor
      · intro _ resource limit found limited _ costly
        cases declared.symm.trans found
        have fits := room resource
        rwa [limited, le_fit costly some] at fits
      · rintro ⟨_, resource, found, limited, costly, exceeds⟩
        cases declared.symm.trans found
        have fits := room resource
        rw [limited, le_fit costly some] at fits
        omega
    · rintro ⟨fits, notOver⟩ resource
      cases limited : quota.limit resource with
      | none => exact below
      | some limit =>
        rcases Nat.eq_zero_or_pos (perTask.amount resource) with free | costly
        · simpa [fit, free] using below
        rw [le_fit costly some]
        rcases (NamespaceQuota.limit_le_cap limited).lt_or_eq with less | largest
        · exact fits quota resource limit declared limited less costly
        · subst largest
          exact not_lt.mp fun exceeds =>
            notOver ⟨quota, resource, declared, limited, costly, exceeds⟩

/-- Tasks are refused exactly if a counter would show more than its limit. -/
theorem taskQuotaError_eq_none {quota : NamespaceQuota}
    (declared : ledger.quotas[ns]? = some quota) {tasks : Nat} (small : tasks < u32Size)
    : ledger.taskQuotaError ns perTask tasks = none
      ↔ ∀ resource limit, quota.limit resource = some limit
        → min ((ledger.used ns).amount resource + perTask.amount resource * tasks) resource.cap
          ≤ limit := by
  have whole : min tasks (u32Size - 1) = tasks := by omega
  have passes := @checkQuota_eq_ok ns { quota with maxApps := none, maxReplicas := none }
    (ledger.used ns) perTask tasks false ()
  simp only [counter_accumulate] at passes
  simp only [taskQuotaError, declared, whole]
  split
  · rename_i found
    rw [found] at passes
    refine iff_of_false (Option.some_ne_none _) fun within => ?_
    refine absurd (passes.mpr ⟨?_, fun _ none => nomatch none⟩) (fun same => nomatch same)
    rintro (resource | _) limit limited
    · exact within resource limit limited
    · cases limited
  · rename_i found
    exact iff_of_true rfl fun resource limit limited =>
      (passes.mp found).1 (.of resource) limit limited

/-- A refusal is found in numbers that stop at the largest one, and for every limited resource. -/
theorem taskQuotaError_eq_none_iff {tasks : Nat} (small : tasks < u32Size)
    : ledger.taskQuotaError ns perTask tasks = none
      ↔ ledger.FitsBelow ns perTask tasks ∧ ¬ledger.StandsOver ns perTask := by
  cases declared : ledger.quotas[ns]? with
  | none => simp [taskQuotaError, FitsBelow, StandsOver, declared]
  | some quota =>
    rw [taskQuotaError_eq_none declared small]
    constructor
    · intro within
      constructor
      · intro _ resource limit found limited less _
        cases declared.symm.trans found
        have shown := within resource limit limited
        omega
      · rintro ⟨_, resource, limit, found, limited, less, free, exceeds⟩
        cases declared.symm.trans found
        have shown := within resource limit limited
        rw [free] at shown
        omega
    · rintro ⟨fits, notOver⟩ resource limit limited
      rcases (NamespaceQuota.limit_le_cap limited).lt_or_eq with less | largest
      · rcases Nat.eq_zero_or_pos (perTask.amount resource) with free | costly
        · have within : ¬limit < (ledger.used ns).amount resource := fun exceeds =>
            notOver ⟨quota, resource, limit, declared, limited, less, free, exceeds⟩
          rw [free]
          omega
        · have within := fits quota resource limit declared limited less costly
          omega
      · omega

theorem amount_chargeTasks_le (resource : Resource) (tasks : Nat)
    : ((ledger.chargeTasks ns perTask tasks).used ns).amount resource
      ≤ (ledger.used ns).amount resource + perTask.amount resource * tasks := by
  have clipped := Nat.mul_le_mul_left perTask.gpus (Nat.min_le_left tasks (u32Size - 1))
  simp only [used, chargeTasks, BTreeMap.get_insert_self, Option.getD_some, saturatingAdd,
    saturatingMul, saturatingAdd32, saturatingMul32]
  cases resource <;> simp only [NamespaceUsage.amount, Resources.amount] <;> omega

/-- There is room for a number of tasks iff that number is not refused, exactly where tasks that fit
the limits below the largest counters run over a counter iff something they leave alone stands over
its limit. And tasks there is room for leave every limited resource they use within its limit. -/
theorem task_questions_agree_iff (ledger : QuotaLedger) (ns : String) (perTask : Resources)
    (tasks : Nat) (some : 0 < tasks)
    : (tasks < u32Size
        → ((tasks ≤ ledger.roomForTasks ns perTask
            ↔ ledger.taskQuotaError ns perTask tasks = none)
          ↔ (ledger.FitsBelow ns perTask tasks
            → (ledger.RunsOver ns perTask tasks ↔ ledger.StandsOver ns perTask))))
      ∧ (tasks ≤ ledger.roomForTasks ns perTask
        → ∀ quota resource limit, ledger.quotas[ns]? = .some quota
          → quota.limit resource = .some limit
          → 0 < perTask.amount resource
          → ((ledger.chargeTasks ns perTask tasks).used ns).amount resource ≤ limit) := by
  constructor
  · intro small
    rw [le_roomForTasks_iff some small, taskQuotaError_eq_none_iff small]
    tauto
  · intro fits quota resource limit declared limited costly
    have room := (le_roomForTasks declared perTask).mp fits resource
    rw [limited, le_fit costly some] at room
    exact (amount_chargeTasks_le resource tasks).trans room

def memoryLimit : NamespaceQuota where
  maxMemoryBytes := some 10

/-- A namespace above its memory limit has room for tasks that use no memory, yet they are refused;
and at the largest limit tasks without room are not refused. -/
theorem unused_memory_refuses_tasks
    : let committed : QuotaLedger :=
        chargeCommitted { quotas := (∅ : BTreeMap String NamespaceQuota).insert "prod" memoryLimit }
          "prod" ⟨0, 20, 0⟩ 1
      let largest := (prodLimit largestLimit).chargeCommitted "prod" ⟨u64Size - 1, 0, 0⟩ 1
      (5 ≤ committed.roomForTasks "prod" ⟨1, 0, 0⟩
        ∧ committed.taskQuotaError "prod" ⟨1, 0, 0⟩ 5 = some (.memoryExceeded "prod" 20 0 10))
      ∧ largest.roomForTasks "prod" ⟨1, 0, 0⟩ = 0
      ∧ largest.taskQuotaError "prod" ⟨1, 0, 0⟩ 1 = none := by
  decide +kernel

def taskLimits : NamespaceQuota where
  maxCpuMillicores := some 20
  maxMemoryBytes := some (Fin.last _)

/-- Beside eight committed millicores of twenty there is room for two tasks of five, in a namespace
whose memory is limited by its counter only. -/
theorem two_tasks_have_room
    : let ledger : QuotaLedger :=
        chargeCommitted { quotas := (∅ : BTreeMap String NamespaceQuota).insert "prod" taskLimits }
          "prod" ⟨8, 3, 0⟩ 1
      (2 ≤ ledger.roomForTasks "prod" ⟨5, 1, 0⟩
        ↔ ledger.taskQuotaError "prod" ⟨5, 1, 0⟩ 2 = none)
      ∧ ((ledger.chargeTasks "prod" ⟨5, 1, 0⟩ 2).used "prod").amount .cpu ≤ 20 := by
  intro ledger
  have declared : ledger.quotas["prod"]? = some taskLimits := by
    decide +kernel
  have used : ledger.used "prod" = ⟨8, 3, 0, 1, 1⟩ := by
    decide +kernel
  obtain ⟨agree, within⟩ := task_questions_agree_iff ledger "prod" ⟨5, 1, 0⟩ 2 (by decide)
  refine ⟨(agree (by decide)).mpr fun _ => iff_of_false ?_ ?_,
    within (by decide +kernel) _ .cpu _ declared rfl (by decide)⟩
  · rintro ⟨_, resource, found, limited, _, exceeds⟩
    cases declared.symm.trans found
    rw [used] at exceeds
    cases resource with
    | cpu | memory =>
      revert exceeds
      decide
    | gpus => cases limited
  · rintro ⟨_, resource, _, _, limited, _, free, _⟩
    cases declared.symm.trans ‹_›
    cases resource with
    | cpu | memory => cases free
    | gpus => cases limited

end Reliaburger.QuotaLedger
