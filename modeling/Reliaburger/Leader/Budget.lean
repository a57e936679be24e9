import Reliaburger.Leader.Fitting

/-! One tick's grants stay within the namespace quotas: what a sync starts is charged to the
ledger before the next run is planned, and the ledger follows the true totals until they reach
the largest counter, where no limit leaves room.
-/

namespace Reliaburger

open BTreeMap NamespaceUsage QuotaLedger TaskArrayState TaskArrays

variable {P : Platform} {ids : Nat → Nat}

-- The ledger

inductive Resource where
  | cpu
  | memory
  | gpus
deriving DecidableEq, Repr

namespace Resource

def cap : Resource → Nat
  | cpu | memory => u64Size - 1
  | gpus => u32Size - 1

end Resource

def Resources.amount (resources : Resources) : Resource → Nat
  | .cpu => resources.cpuMillicores
  | .memory => resources.memoryBytes
  | .gpus => resources.gpus

def NamespaceUsage.amount (usage : NamespaceUsage) : Resource → Nat
  | .cpu => usage.cpuMillicores
  | .memory => usage.memoryBytes
  | .gpus => usage.gpus

def NamespaceQuota.limit (quota : NamespaceQuota) : Resource → Option Nat
  | .cpu => quota.maxCpuMillicores.map Fin.val
  | .memory => quota.maxMemoryBytes.map Fin.val
  | .gpus => quota.maxGpus.map Fin.val

theorem NamespaceQuota.limit_le_cap {quota : NamespaceQuota} {resource : Resource} {limit : Nat}
    (limited : quota.limit resource = some limit)
    : limit ≤ resource.cap := by
  cases resource <;>
    (simp only [NamespaceQuota.limit, Option.map_eq_some_iff] at limited
     obtain ⟨value, _, rfl⟩ := limited
     exact Nat.le_sub_one_of_lt value.isLt)

/-- A charge that saturates on the way ends where the true sum saturates. -/
theorem min_add_min_mul {cap clamp : Nat} (used each tasks : Nat) (below : cap ≤ clamp)
    : min (min used cap + min (each * min tasks clamp) cap) cap
      = min (used + each * tasks) cap := by
  rcases Nat.le_total tasks clamp with few | many
  · rw [Nat.min_eq_left few]
    omega
  rw [Nat.min_eq_right many]
  cases each with
  | zero => simp
  | succ each =>
    have small : cap ≤ (each + 1) * clamp :=
      below.trans (Nat.le_mul_of_pos_left clamp (Nat.succ_pos each))
    have large : cap ≤ (each + 1) * tasks :=
      small.trans (Nat.mul_le_mul_left _ many)
    omega

namespace QuotaLedger

/-- The ledger shows these totals, as far as its counters go. -/
def Tracks (ledger : QuotaLedger) (total : String → Resource → Nat) : Prop :=
  ∀ ns resource, (ledger.used ns).amount resource = min (total ns resource) resource.cap

def charged (total : String → Resource → Nat) (ns : String) (perTask : Resources) (tasks : Nat)
    (other : String) (resource : Resource)
    : Nat :=
  total other resource + if other = ns then perTask.amount resource * tasks else 0

theorem Tracks.empty (quotas : BTreeMap String NamespaceQuota)
    : ({ quotas } : QuotaLedger).Tracks (fun _ _ => 0) := by
  intro ns resource
  cases resource <;> simp [used, amount]

variable {ledger : QuotaLedger} {total : String → Resource → Nat}

/-- A charge adds its attempts to the totals. -/
theorem Tracks.charge (tracks : ledger.Tracks total) (ns : String) (perTask : Resources)
    (tasks : Nat)
    : (ledger.chargeTasks ns perTask tasks).Tracks (charged total ns perTask tasks) := by
  intro other resource
  by_cases here : other = ns
  · subst here
    have before := tracks other resource
    simp only [charged, if_true]
    cases resource with
    | cpu | memory =>
      simp only [amount, Resource.cap] at before
      simp only [amount, Resources.amount, Resource.cap, used, chargeTasks,
        get_insert_self, Option.getD_some, saturatingAdd, saturatingMul]
      rw [show (ledger.usage[other]?.getD {}) = ledger.used other from rfl, before]
      omega
    | gpus =>
      simp only [amount, Resource.cap] at before
      simp only [amount, Resources.amount, Resource.cap, used, chargeTasks,
        get_insert_self, Option.getD_some, saturatingAdd32, saturatingMul32]
      rw [show (ledger.usage[other]?.getD {}) = ledger.used other from rfl, before]
      exact min_add_min_mul _ _ _ le_rfl
  · simp only [charged, if_neg here, Nat.add_zero]
    rw [← tracks other resource]
    simp only [used, chargeTasks]
    rw [get_insert_ne _ _ (Ne.symm here)]

theorem Tracks.of_eq {other : String → Resource → Nat} (tracks : ledger.Tracks total)
    (same : ∀ ns resource, other ns resource = total ns resource)
    : ledger.Tracks other :=
  fun ns resource => same ns resource ▸ tracks ns resource

/-- Charging a list adds the sum of its charges, whatever is charged. -/
theorem Tracks.foldl {Entry : Type} (charge : QuotaLedger → Entry → QuotaLedger)
    (cost : Entry → String → Resource → Nat) (each : ∀ ledger entry total, ledger.Tracks total
      → (charge ledger entry).quotas = ledger.quotas
        ∧ (charge ledger entry).Tracks (fun ns resource =>
          total ns resource + cost entry ns resource)) (entries : List Entry)
    (tracks : ledger.Tracks total)
    : (entries.foldl charge ledger).quotas = ledger.quotas
      ∧ (entries.foldl charge ledger).Tracks (fun ns resource =>
        total ns resource + (entries.map (fun entry => cost entry ns resource)).sum) := by
  induction entries generalizing ledger total with
  | nil => exact ⟨rfl, by simpa using tracks⟩
  | cons entry rest ih =>
    obtain ⟨same, charged⟩ := each ledger entry total tracks
    obtain ⟨others, final⟩ := ih charged
    exact ⟨others.trans same, by simpa [Nat.add_assoc] using final⟩

/-- A charge of a clamped number of attempts is one of the true number. -/
theorem Tracks.clamp {ns : String} {perTask : Resources} {tasks : Nat}
    (tracks : ledger.Tracks (charged total ns perTask (min tasks (u64Size - 1))))
    : ledger.Tracks (charged total ns perTask tasks) := by
  intro other resource
  rw [tracks other resource]
  simp only [charged]
  split
  · have below : resource.cap ≤ u64Size - 1 := by
      cases resource <;> simp only [Resource.cap, u64Size, u32Size] <;> omega
    have rounded := min_add_min_mul (total other resource) (perTask.amount resource) tasks below
    rw [← rounded]
    omega
  · rfl

/-- Attempts fit a limit on what they reserve exactly if they stay within it. -/
theorem le_fit {limit used each tasks : Nat} (costly : 0 < each) (some : 0 < tasks)
    : tasks ≤ fit (.some limit) used each ↔ used + each * tasks ≤ limit := by
  have positive := Nat.mul_pos costly some
  simp only [fit, gt_iff_lt, costly, if_true]
  rw [Nat.le_div_iff_mul_le costly, Nat.mul_comm]
  omega

theorem le_roomForTasks {ns : String} {quota : NamespaceQuota}
    (declared : ledger.quotas[ns]? = some quota) (perTask : Resources) {tasks : Nat}
    : tasks ≤ ledger.roomForTasks ns perTask
      ↔ ∀ resource, tasks
        ≤ fit (quota.limit resource) ((ledger.used ns).amount resource)
            (perTask.amount resource) := by
  simp only [roomForTasks, declared, Nat.le_min]
  refine ⟨?_, fun all => ⟨⟨all .cpu, all .memory⟩, all .gpus⟩⟩
  rintro ⟨⟨_, _⟩, _⟩ (_ | _ | _)
  all_goals assumption

/-- Attempts that fit keep every limited total within its limit, unless they reserve none of
it. -/
theorem room_le (tracks : ledger.Tracks total) {ns : String} {quota : NamespaceQuota}
    (declared : ledger.quotas[ns]? = some quota) {resource : Resource} {limit : Nat}
    (limited : quota.limit resource = some limit) (perTask : Resources) {tasks : Nat}
    (fits : tasks ≤ ledger.roomForTasks ns perTask)
    : perTask.amount resource * tasks = 0
      ∨ total ns resource + perTask.amount resource * tasks ≤ limit := by
  have below := NamespaceQuota.limit_le_cap limited
  have room := (le_roomForTasks declared perTask).mp fits resource
  rcases Nat.eq_zero_or_pos (perTask.amount resource) with free | costly
  · exact .inl (by simp [free])
  rcases Nat.eq_zero_or_pos tasks with none | some
  · exact .inl (by simp [none])
  rw [limited, le_fit costly some, tracks] at room
  have positive := Nat.mul_pos costly some
  omega

end QuotaLedger

-- One array's sync

/-- The slots a node reported for an array; a node that did not answer could run every task it
holds. -/
def slotsFor (answers : List (NodeId × ArrayProgress)) (node : NodeId) : Option Nat :=
  ((answeredSlots answers).find? (·.node == node)).map (fun candidate => candidate.slots.val)

def assumedSlots (answers : List (NodeId × ArrayProgress)) (node : NodeId) : Nat :=
  (slotsFor answers node).getD (u32Size - 1)

theorem assumedSlots_of_answered {answers : List (NodeId × ArrayProgress)} {node : NodeId}
    (answered : ∃ answer ∈ answers, answer.1 = node)
    : assumedSlots answers node = slotsOf (answeredSlots answers) node := by
  obtain ⟨answer, member, rfl⟩ := answered
  unfold assumedSlots slotsFor slotsOf
  cases found : (answeredSlots answers).find? (·.node == answer.1) with
  | some candidate => rfl
  | none =>
    have absent := List.find?_eq_none.mp found ⟨answer.1, answer.2.slots⟩
      (List.mem_map_of_mem member)
    simp at absent

/-- After a planned sync's reports and grants, the attempts that may be in flight have grown by
no more than the sync was charged for, which fits. -/
theorem fittedGrants_bound (state : TaskArrayState) (answers : List (NodeId × ArrayProgress))
    (replayUnknown : Bool) (room : Nat)
    : ((state.preview answers).1.run ((fittedGrants state answers replayUnknown room).grants.map
          (fun entry => .grant entry.1 entry.2))).attemptsInFlight (assumedSlots answers)
        ≤ state.attemptsInFlight (assumedSlots answers)
          + (fittedGrants state answers replayUnknown room).started
      ∧ (fittedGrants state answers replayUnknown room).started ≤ room := by
  have reported : (state.preview answers).1.attemptsInFlight (assumedSlots answers)
      ≤ state.attemptsInFlight (assumedSlots answers) := by
    rw [← (state.preview_accepted answers).run_eq]
    exact state.attemptsInFlight_reports _ _
  have costs : planCost (state.preview answers).1 (assumedSlots answers)
      (fittedGrants state answers replayUnknown room).grants
      = (fittedGrants state answers replayUnknown room).started := by
    refine Eq.trans ?_ (fitGrants_fits _ _ _ _).2.cost
    refine congrArg List.sum (List.map_congr_left fun entry granted => ?_)
    rw [grantCost, assumedSlots_of_answered (fittedGrants_nodes granted), grantCost]
  have most := (@attemptsInFlight_grants _ (assumedSlots answers)
    (fittedGrants state answers replayUnknown room).grants
    ((fitGrants_fits _ _ _ _).2.nodes_sublist.nodup (nodup_planGrants _ _ _))
    (state.preview answers).1 rfl fun _ _ => rfl).1
  rw [costs] at most
  exact ⟨most.trans (Nat.add_le_add_right reported _), (fitGrants_fits _ _ _ _).1⟩

-- The whole tick

namespace TaskArrayRecord

/-- What the attempts in flight of one array reserve of a namespace's resource. -/
def reserved (slots : NodeId → Nat) (ns : String) (resource : Resource)
    (record : TaskArrayRecord)
    : Nat :=
  if ns = record.ns then
    (taskReservation record.template).amount resource * record.state.attemptsInFlight slots
  else 0

theorem reserved_of_terminal {record : TaskArrayRecord} (slots : NodeId → Nat) (ns : String)
    (resource : Resource) (terminal : record.state.status.isTerminal = true)
    : record.reserved slots ns resource = 0 := by
  have none := Std.ExtTreeMap.isEmpty_iff.mp
    (status_isTerminal_iff.mp terminal).2
  simp [reserved, attemptsInFlight, none]

end TaskArrayRecord

/-- What the attempts in flight of all arrays reserve of a namespace's resource. -/
def TaskArrays.reserved (slots : Nat → NodeId → Nat) (store : TaskArrays) (ns : String)
    (resource : Resource)
    : Nat :=
  BTreeMap.total (fun id record => record.reserved (slots id) ns resource) store.arrays

/-- Only active arrays have attempts in flight. -/
theorem TaskArrays.reserved_eq_sum_active (slots : Nat → NodeId → Nat) (store : TaskArrays)
    (ns : String) (resource : Resource)
    : store.reserved slots ns resource
      = (store.active.map (fun entry => entry.2.reserved (slots entry.1) ns resource)).sum := by
  simp only [reserved, total, active]
  induction store.arrays.toList with
  | nil => rfl
  | cons entry rest ih =>
    cases terminal : entry.2.state.status.isTerminal with
    | true =>
      rw [List.filter_cons_of_neg (by simp [terminal]), List.map_cons, List.sum_cons, ih,
        TaskArrayRecord.reserved_of_terminal _ _ _ terminal, Nat.zero_add]
    | false =>
      rw [List.filter_cons_of_pos (by simp [terminal]), List.map_cons, List.sum_cons, ih,
        List.map_cons, List.sum_cons]

namespace GrantBudget

/-- The attempts that are charged are the ones that may be in flight, as far as the counter
goes. -/
theorem inFlight_eq (slots : NodeId → Option Nat) (state : TaskArrayState)
    : inFlight slots state
      = min (state.attemptsInFlight (fun node => (slots node).getD (u32Size - 1)))
        (u64Size - 1) := by
  have holders : ∀ holder ∈ state.grants.toList,
      state.inFlightOn holder.1 ((slots holder.1).getD (u32Size - 1))
      = min (state.tasksIn holder.2) ((slots holder.1).getD (u32Size - 1)) := by
    intro holder member
    have held : state.grants[holder.1]? = some holder.2 := mem_toList.mp member
    simp [inFlightOn, heldTasks, heldBy, held]
  unfold inFlight attemptsInFlight total
  have sums : ∀ (entries : List (NodeId × IndexRangeSet)) (sum : Nat),
      (∀ holder ∈ entries,
        state.inFlightOn holder.1 ((slots holder.1).getD (u32Size - 1))
        = min (state.tasksIn holder.2) ((slots holder.1).getD (u32Size - 1)))
      → entries.foldl (fun sum holder =>
          saturatingAdd sum (state.inFlightOn holder.1 ((slots holder.1).getD (u32Size - 1))))
          (min sum (u64Size - 1))
        = min (sum + (entries.map (fun holder =>
          min (state.tasksIn holder.2) ((slots holder.1).getD (u32Size - 1)))).sum)
          (u64Size - 1) := by
    intro entries
    induction entries with
    | nil => simp
    | cons holder rest ih =>
      intro sum each
      have here := each holder List.mem_cons_self
      rw [List.foldl_cons, here, List.map_cons, List.sum_cons, ← Nat.add_assoc,
        ← ih _ (List.forall_mem_cons.mp each).2]
      congr 1
      unfold saturatingAdd
      omega
  simpa using sums state.grants.toList 0 holders

def placementCost (ns : String) (placement : Placement) (other : String) (resource : Resource)
    : Nat :=
  if other = ns then placement.resources.amount resource else 0

def appCost (entry : AppId × List Placement) (ns : String) (resource : Resource) : Nat :=
  (entry.2.map (fun placement => placementCost entry.1.ns placement ns resource)).sum

variable {ledger : QuotaLedger} {total : String → Resource → Nat}

theorem charge_app (entry : AppId × List Placement) (tracks : ledger.Tracks total)
    : (entry.2.foldl (fun ledger placement =>
          ledger.chargeTasks entry.1.ns placement.resources 1) ledger).quotas = ledger.quotas
      ∧ (entry.2.foldl (fun ledger placement =>
          ledger.chargeTasks entry.1.ns placement.resources 1) ledger).Tracks
        (fun ns resource => total ns resource + appCost entry ns resource) := by
  refine QuotaLedger.Tracks.foldl _ (placementCost entry.1.ns) ?_ entry.2 tracks
  intro ledger placement total tracks
  refine ⟨rfl, (tracks.charge entry.1.ns placement.resources 1).of_eq fun other resource => ?_⟩
  simp [charged, placementCost]

theorem charge_array (slots : NodeId → Option Nat) (record : TaskArrayRecord)
    (tracks : ledger.Tracks total)
    : (ledger.chargeTasks record.ns (taskReservation record.template)
        (inFlight slots record.state)).Tracks (fun ns resource => total ns resource
          + record.reserved (fun node => (slots node).getD (u32Size - 1)) ns resource) := by
  have charged := tracks.charge record.ns (taskReservation record.template)
    (inFlight slots record.state)
  rw [inFlight_eq] at charged ⊢
  exact charged.clamp

def placed (placements : List (AppId × List Placement)) (ns : String) (resource : Resource)
    : Nat :=
  (placements.map (fun entry => appCost entry ns resource)).sum

/-- The budget starts from what the apps and the attempts in flight reserve. -/
theorem new_tracks {quotas : BTreeMap String NamespaceQuota}
    {placements : List (AppId × List Placement)} {arrays : TaskArrays}
    {slots : Nat → NodeId → Option Nat} {budget : GrantBudget}
    (built : new quotas placements arrays slots = some budget)
    : budget.ledger.quotas = quotas
      ∧ budget.ledger.Tracks (fun ns resource => placed placements ns resource
        + arrays.reserved (fun id node => (slots id node).getD (u32Size - 1)) ns resource) := by
  unfold new at built
  split at built
  · cases built
  cases built
  have apps := QuotaLedger.Tracks.foldl _ appCost
    (fun _ entry _ tracks => charge_app entry tracks) placements (QuotaLedger.Tracks.empty quotas)
  have jobs := QuotaLedger.Tracks.foldl
    (fun ledger entry => ledger.chargeTasks entry.2.ns (taskReservation entry.2.template)
      (inFlight (slots entry.1) entry.2.state))
    (fun (entry : Nat × TaskArrayRecord) ns resource =>
      entry.2.reserved (fun node => (slots entry.1 node).getD (u32Size - 1)) ns resource)
    (fun _ entry _ tracks => ⟨rfl, charge_array (slots entry.1) entry.2 tracks⟩)
    arrays.active apps.2
  refine ⟨jobs.1.trans apps.1, jobs.2.of_eq (fun ns resource => ?_)⟩
  simp only [placed, reserved_eq_sum_active, Nat.zero_add]

end GrantBudget

/-- A planned sync, once applied, adds at most what it was charged for, and it moves no other
array. -/
theorem planned_reserved {machine : Machine} {id : Nat} {record : TaskArrayRecord}
    (found : machine.store.arrays[id]? = some record)
    (answers : Nat → List (NodeId × ArrayProgress)) (replayUnknown : Bool) (room now : Nat)
    : (∀ ns resource,
        (Machine.run P ids machine ((planSyncWithin id record (answers id) replayUnknown room
            ).1.toList.map (TaskArrayWrite.stamp now))).store.reserved
            (fun id => assumedSlots (answers id)) ns resource
          ≤ QuotaLedger.charged (machine.store.reserved (fun id => assumedSlots (answers id)))
            record.ns (taskReservation record.template)
            (planSyncWithin id record (answers id) replayUnknown room).2.started ns resource)
      ∧ (planSyncWithin id record (answers id) replayUnknown room).2.started ≤ room
      ∧ ∀ other : Nat, other ≠ id
        → (Machine.run P ids machine ((planSyncWithin id record (answers id) replayUnknown room
            ).1.toList.map (TaskArrayWrite.stamp now))).store.arrays[other]?
          = machine.store.arrays[other]? := by
  obtain ⟨most, fits⟩ := fittedGrants_bound record.state (answers id) replayUnknown room
  unfold planSyncWithin
  simp only
  split
  · exact ⟨fun ns resource => Nat.le_add_right _ _, fits, fun _ _ => rfl⟩
  simp only [Option.toList_some, List.map_cons, List.map_nil, Machine.run, TaskArrayWrite.stamp,
    ProgressWrite.stamp]
  generalize stampedTime now 0 = time
  have applied : (machine.apply P ids (.progress (.sync id (record.state.preview (answers id)).2
      (fittedGrants record.state (answers id) replayUnknown room).grants time))).2
      = { machine with
          store := machine.store.settle id { record with
            state := (record.state.preview (answers id)).1.run
              ((fittedGrants record.state (answers id) replayUnknown room).grants.map
                (fun entry => .grant entry.1 entry.2)) } time } := by
    show (machine.publish (machine.store.sync id _ _ time)).2 = _
    simp only [sync, found, syncOps, runCounting_fst,
      (record.state.preview_accepted (answers id)).run_eq, Machine.publish]
  rw [List.foldl_cons, List.foldl_nil, applied]
  refine ⟨fun ns resource => ?_, fits, fun other different => ?_⟩
  · simp only [settle, reserved, total_insert,
      charged]
    rw [total_of_get _ found]
    simp only [TaskArrayRecord.reserved, withReceipt_ns, withReceipt_state,
      withReceipt_template]
    split
    · have scaled := Nat.mul_le_mul_left ((taskReservation record.template).amount resource) most
      rw [Nat.mul_add] at scaled
      omega
    · omega
  · show (machine.store.settle id _ time).arrays[other]? = _
    rw [settle_arrays, if_neg (Ne.symm different)]

namespace GrantBudget

/-- Planning and applying the arrays in turn keeps every limited total within the larger of its
limit and what was charged before; by induction on the arrays still to plan. -/
theorem planAll_within {answers : Nat → List (NodeId × ArrayProgress)}
    {replayUnknown : Nat → Bool} {now : Nat} {quotas : BTreeMap String NamespaceQuota}
    {apps : String → Resource → Nat} (entries : List (Nat × TaskArrayRecord))
    (distinct : (entries.map Prod.fst).Nodup) (machine : Machine)
    (found : ∀ entry ∈ entries, machine.store.arrays[entry.1]? = some entry.2)
    (budget : GrantBudget) (declared : budget.ledger.quotas = quotas)
    {total : String → Resource → Nat} (tracks : budget.ledger.Tracks total)
    (covers : ∀ ns resource, apps ns resource
      + machine.store.reserved (fun id => assumedSlots (answers id)) ns resource
        ≤ total ns resource)
    {ns : String} {quota : NamespaceQuota} (limits : quotas[ns]? = some quota)
    {resource : Resource} {limit : Nat} (limited : quota.limit resource = some limit)
    : apps ns resource
        + (Machine.run P ids machine ((planAll answers replayUnknown entries budget).1.map
          (TaskArrayWrite.stamp now))).store.reserved (fun id => assumedSlots (answers id)) ns
          resource
      ≤ max limit (total ns resource) := by
  induction entries generalizing machine budget total with
  | nil => exact (covers ns resource).trans (le_max_right _ _)
  | cons entry rest ih =>
    obtain ⟨id, record⟩ := entry
    obtain ⟨new, others⟩ := List.nodup_cons.mp distinct
    have here : machine.store.arrays[id]? = some record := found (id, record) List.mem_cons_self
    obtain ⟨most, fits, kept⟩ := @planned_reserved P ids _ _ _ here answers
      (replayUnknown id)
      (budget.ledger.roomForTasks record.ns (taskReservation record.template)) now
    simp only [planAll, plan, List.map_append]
    rw [Machine.run, List.foldl_append]
    have later := ih others _ (fun entry member => by
        rw [kept entry.1 (fun same => new (List.mem_map.mpr ⟨entry, member, same⟩))]
        exact found entry (List.mem_cons_of_mem _ member))
      ⟨budget.ledger.chargeTasks record.ns (taskReservation record.template)
        (planSyncWithin id record (answers id) (replayUnknown id)
          (budget.ledger.roomForTasks record.ns (taskReservation record.template))).2.started⟩
      declared (tracks.charge _ _ _) (fun ns resource => by
        have before := covers ns resource
        have after := most ns resource
        simp only [charged] at after ⊢
        omega)
    refine later.trans ?_
    simp only [charged]
    split
    · rename_i same
      subst same
      rw [← declared] at limits
      rcases room_le tracks limits limited _ fits with free | within
      · rw [free]
        exact le_rfl
      · omega
    · exact le_rfl

/-- After a tick's syncs, what a namespace's apps and the attempts that may be in flight reserve
of a limited resource is within the limit, or no more than before the tick. -/
theorem grants_stay_within_quotas {store : TaskArrays} {quotas : BTreeMap String NamespaceQuota}
    {placements : List (AppId × List Placement)}
    {answers : Nat → List (NodeId × ArrayProgress)} {budget : GrantBudget}
    (built : new quotas placements store (fun id => slotsFor (answers id)) = some budget)
    (replayUnknown : Nat → Bool) (now allocated : Nat) {ns : String} {quota : NamespaceQuota}
    (limits : quotas[ns]? = some quota) {resource : Resource} {limit : Nat}
    (limited : quota.limit resource = some limit)
    : placed placements ns resource
        + (Machine.run P ids { store, allocated }
          ((budget.planAll answers replayUnknown store.active).1.map
            (TaskArrayWrite.stamp now))).store.reserved (fun id => assumedSlots (answers id)) ns
          resource
      ≤ max limit (placed placements ns resource
        + store.reserved (fun id => assumedSlots (answers id)) ns resource) := by
  obtain ⟨declared, tracks⟩ := new_tracks built
  refine planAll_within store.active ?_ { store, allocated } ?_ budget declared tracks
    (fun _ _ => le_rfl) limits limited
  · exact (List.filter_sublist.map Prod.fst).nodup (nodup_keys_toList store.arrays)
  · intro entry member
    exact (mem_active.mp member).1

def sampleQuotas : BTreeMap String NamespaceQuota :=
  (∅ : BTreeMap String NamespaceQuota).insert "default"
    { maxCpuMillicores := some ⟨3000, by decide⟩ }

def samplePlacements : List (AppId × List Placement) :=
  [(⟨"web", "default"⟩, [⟨"node-a", ⟨1000, 0, 0⟩, 0⟩])]

/-- The store of one run whose first chunk is handed out. -/
def sampleStore : TaskArrays :=
  (Machine.run Machine.samplePlatform (· + 1) {} handedOutWrites).store

/-- One more attempt fits beside the app and the attempt in flight. -/
theorem sampleStore_stays_within_quota
    : ∃ budget,
        new sampleQuotas samplePlacements sampleStore (fun _ => slotsFor twoAnswers)
          = some budget
        ∧ placed samplePlacements "default" .cpu
          + (Machine.run Machine.samplePlatform (· + 1) { store := sampleStore, allocated := 1 }
            ((budget.planAll (fun _ => twoAnswers) (fun _ => true) sampleStore.active).1.map
              (TaskArrayWrite.stamp 5))).store.reserved (fun _ => assumedSlots twoAnswers)
            "default" .cpu
          ≤ 3000 := by
  have built : (new sampleQuotas samplePlacements sampleStore
      (fun _ => slotsFor twoAnswers)).isSome = true := by
    decide +kernel
  obtain ⟨budget, isBudget⟩ := Option.isSome_iff_exists.mp built
  refine ⟨budget, isBudget, ?_⟩
  have within := @grants_stay_within_quotas Machine.samplePlatform (· + 1) sampleStore
    sampleQuotas samplePlacements (fun _ => twoAnswers) budget isBudget (fun _ => true) 5 1
    "default" { maxCpuMillicores := some ⟨3000, by decide⟩ } (by decide +kernel) .cpu 3000 rfl
  have before : placed samplePlacements "default" .cpu
      + sampleStore.reserved (fun _ => assumedSlots twoAnswers) "default" .cpu = 2000 := by
    decide +kernel
  rw [before] at within
  exact within

end GrantBudget

end Reliaburger
