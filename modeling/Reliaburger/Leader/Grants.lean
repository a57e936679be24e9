import Reliaburger.Store.Progress

/-! How the leader turns the nodes' answers about one array into its sync: which reports it
passes on, which queued chunks it hands to which node, and how many of those a quota allows.
-/

namespace Reliaburger

/-- One past the largest 32-bit counter. -/
def u32Size : Nat := 2 ^ 32

instance : NeZero u32Size := ⟨by decide⟩

structure Resources where
  cpuMillicores : Nat
  memoryBytes : Nat
  gpus : Nat
deriving DecidableEq, Repr

structure NamespaceQuota where
  maxCpuMillicores : Option (Fin u64Size) := none
  maxMemoryBytes : Option (Fin u64Size) := none
  maxGpus : Option (Fin u32Size) := none
  maxApps : Option (Fin u32Size) := none
  maxReplicas : Option (Fin u32Size) := none
deriving DecidableEq, Repr

structure NamespaceUsage where
  cpuMillicores : Nat := 0
  memoryBytes : Nat := 0
  gpus : Nat := 0
  appCount : Nat := 0
  replicaCount : Nat := 0
deriving DecidableEq, Repr

/-- Multiplication of 64-bit counters that stops at the largest one. -/
def saturatingMul (left right : Nat) : Nat :=
  min (left * right) (u64Size - 1)

def saturatingAdd32 (left right : Nat) : Nat :=
  min (left + right) (u32Size - 1)

def saturatingMul32 (left right : Nat) : Nat :=
  min (left * right) (u32Size - 1)

/-- Refuse what exceeds a limit, if there is one. -/
def checkLimit {size : Nat} (limit : Option (Fin size)) (exceeds : Nat → Prop)
    [DecidablePred exceeds] (refusal : Nat → QuotaError)
    : Except QuotaError Unit :=
  match limit with
  | none => .ok ()
  | some limit => Checks.refuseIf (exceeds limit) (refusal limit)

theorem checkLimit_eq_ok {size : Nat} {limit : Option (Fin size)} {exceeds : Nat → Prop}
    [DecidablePred exceeds] {refusal : Nat → QuotaError} {answer : Unit}
    : checkLimit limit exceeds refusal = .ok answer
      ↔ ∀ most, limit.map Fin.val = some most → ¬exceeds most := by
  cases limit <;> simp [checkLimit]

def checkQuota (ns : String) (quota : NamespaceQuota) (usage : NamespaceUsage)
    (requested : Resources) (newReplicas : Nat) (isNewApp : Bool)
    : Except QuotaError Unit := do
  let cpu := saturatingMul requested.cpuMillicores newReplicas
  checkLimit quota.maxCpuMillicores (saturatingAdd usage.cpuMillicores cpu > ·)
    (.cpuExceeded ns usage.cpuMillicores cpu)
  let memory := saturatingMul requested.memoryBytes newReplicas
  checkLimit quota.maxMemoryBytes (saturatingAdd usage.memoryBytes memory > ·)
    (.memoryExceeded ns usage.memoryBytes memory)
  let gpus := saturatingMul32 requested.gpus newReplicas
  checkLimit quota.maxGpus (saturatingAdd32 usage.gpus gpus > ·) (.gpuExceeded ns usage.gpus gpus)
  checkLimit quota.maxApps (fun limit => isNewApp ∧ usage.appCount ≥ limit)
    (.maxAppsExceeded ns usage.appCount)
  checkLimit quota.maxReplicas (saturatingAdd32 usage.replicaCount newReplicas > ·)
    (.maxReplicasExceeded ns usage.replicaCount newReplicas)

/-- Usage per namespace for one scheduling pass. -/
structure QuotaLedger where
  quotas : BTreeMap String NamespaceQuota
  usage : BTreeMap String NamespaceUsage := ∅

namespace QuotaLedger

variable (ledger : QuotaLedger)

def used (ns : String) : NamespaceUsage :=
  ledger.usage[ns]?.getD {}

/-- Record job attempts in flight. They count towards CPU, memory and GPUs, never towards the
app or replica counts. -/
def chargeTasks (ns : String) (perTask : Resources) (tasks : Nat) : QuotaLedger :=
  let entry := ledger.used ns
  let tasks32 := min tasks (u32Size - 1)
  { ledger with
    usage := ledger.usage.insert ns
      { entry with
        cpuMillicores :=
          saturatingAdd entry.cpuMillicores (saturatingMul perTask.cpuMillicores tasks)
        memoryBytes := saturatingAdd entry.memoryBytes (saturatingMul perTask.memoryBytes tasks)
        gpus := saturatingAdd32 entry.gpus (saturatingMul32 perTask.gpus tasks32) } }

/-- How many more reservations of `each` a limit leaves room for. -/
def fit (limit : Option Nat) (used each : Nat) : Nat :=
  match limit with
  | some limit => if each > 0 then (limit - used) / each else u64Size - 1
  | none => u64Size - 1

/-- How many more attempts fit in a namespace now; the largest counter when nothing limits
them. -/
def roomForTasks (ns : String) (perTask : Resources) : Nat :=
  match ledger.quotas[ns]? with
  | none => u64Size - 1
  | some quota =>
    let usage := ledger.used ns
    min (min (fit (quota.maxCpuMillicores.map Fin.val) usage.cpuMillicores
        perTask.cpuMillicores)
      (fit (quota.maxMemoryBytes.map Fin.val) usage.memoryBytes perTask.memoryBytes))
      (fit (quota.maxGpus.map Fin.val) usage.gpus perTask.gpus)

/-- Why `tasks` more attempts do not fit. App and replica limits do not apply to jobs. -/
def taskQuotaError (ns : String) (perTask : Resources) (tasks : Nat) : Option QuotaError :=
  match ledger.quotas[ns]? with
  | none => none
  | some quota =>
    let resourcesOnly := { quota with maxApps := none, maxReplicas := none }
    match checkQuota ns resourcesOnly (ledger.used ns) perTask (min tasks (u32Size - 1))
        false with
    | .error refused => some refused
    | .ok () => none

end QuotaLedger

-- Grants

/-- Fewest chunks a node should hold. -/
def minGrantDepth : Nat := 2

/-- Most chunks the learned lookahead hands one node. -/
def maxLearnedGrantDepth : Nat := 16

def lookaheadMilliseconds : Nat := 2000

/-- One in this many recent tasks may be slow before the small window is kept. -/
def slowOverflowRatio : Nat := 16

structure NodeSlots where
  node : NodeId
  /-- Tasks of this array the node can run at once. -/
  slots : Fin u32Size
deriving DecidableEq

def divCeil (value divisor : Nat) : Nat :=
  (value + divisor - 1) / divisor

/-- How many chunks a node should hold: two full rounds of its slots. -/
def grantDepth (slots chunkSize : Nat) : Nat :=
  max (divCeil (2 * slots) (max chunkSize 1)) minGrantDepth

/-- Split `outstanding` chunks across nodes in proportion to their slots. What the whole parts
leave over goes to the largest fractions, ties in order. -/
def capacityShares (outstanding : Nat) (slots : List Nat) : List Nat :=
  let total := slots.sum
  if total = 0 then slots.map (fun _ => 0)
  else
    let weighted := slots.map (outstanding * ·)
    let shares := weighted.map (· / total)
    let left := outstanding - shares.sum
    let byFraction := (List.range slots.length).insertionSort
      (fun first second => weighted.getD second 0 % total ≤ weighted.getD first 0 % total)
    let raised := byFraction.take left
    shares.mapIdx (fun index share => if raised.contains index then share + 1 else share)

namespace TaskArrayState

variable (state : TaskArrayState)

/-- The chunks a node should hold once recent durations are known; `share` caps the learned
part. -/
def observedGrantDepth (slots share : Nat) : Nat :=
  let baseline := grantDepth slots state.spec.chunkSize
  let recent := state.recentDurationCounts.toList
  let finite := recent.take 15
  if recent.getD 15 0 * slowOverflowRatio > recent.sum then baseline
  else
    let samples := finite.sum
    let milliseconds := (finite.mapIdx (fun bucket count => count * 2 ^ bucket)).sum
    if milliseconds = 0 then baseline
    else
      let tasks := slots * lookaheadMilliseconds * samples / milliseconds
      let chunks := divCeil tasks (max state.spec.chunkSize 1)
      max baseline (min chunks (min maxLearnedGrantDepth share))

def heldCount (node : NodeId) : Nat :=
  ((state.heldBy node).map IndexRangeSet.len).getD 0

def heldTasks (node : NodeId) : Nat :=
  ((state.heldBy node).map state.tasksIn).getD 0

/-- Attempts of this array a node can have running at once with what it holds now. -/
def inFlightOn (node : NodeId) (slots : Nat) : Nat :=
  min (state.heldTasks node) slots

end TaskArrayState

/-- The nodes that can take work, each once, in the order given. -/
def addCandidate (order : List NodeSlots) (candidate : NodeSlots) : List NodeSlots :=
  if 0 < candidate.slots.val && !order.any (·.node == candidate.node) then order ++ [candidate]
  else order

/-- The nodes that can take work, emptiest first, ties by name. -/
def grantOrder (state : TaskArrayState) (nodes : List NodeSlots) : List NodeSlots :=
  (nodes.foldl addCandidate []).insertionSort (fun first second =>
    state.heldCount first.node < state.heldCount second.node
    ∨ state.heldCount first.node = state.heldCount second.node ∧ first.node ≤ second.node)

/-- Top the nodes up in turn, always with the lowest queued chunks. -/
def planEach (state : TaskArrayState) (lookahead : Bool)
    : IndexRangeSet → List (NodeSlots × Nat) → List (NodeId × IndexRangeSet)
  | _, [] => []
  | queue, (candidate, share) :: rest =>
    if queue.isEmpty then []
    else
      let depth :=
        if lookahead then state.observedGrantDepth candidate.slots share
        else grantDepth candidate.slots state.spec.chunkSize
      let wanted := depth - state.heldCount candidate.node
      let (chunks, left) := queue.takeFirst wanted
      if chunks.isEmpty then planEach state lookahead left rest
      else (candidate.node, chunks) :: planEach state lookahead left rest

/-- Decide which queued chunks to hand to which node; nothing once the array has stopped. -/
def planGrants (state : TaskArrayState) (nodes : List NodeSlots) (lookahead : Bool)
    : List (NodeId × IndexRangeSet) :=
  if state.stopped.isSome then []
  else
    let order := grantOrder state nodes
    let outstanding := order.foldl
      (fun sum candidate => saturatingAdd sum (state.heldCount candidate.node)) state.queued.len
    let shares := capacityShares outstanding (order.map (fun candidate => candidate.slots.val))
    planEach state lookahead state.queued (order.zip shares)

/-- A grant plan trimmed to a namespace's remaining quota. -/
structure FittedGrants where
  /-- The grants that fit, in the order planned. -/
  grants : List (NodeId × IndexRangeSet) := []
  /-- Attempts these grants let start, beyond what nodes already ran. -/
  started : Nat := 0
  /-- Attempts the first chunk held back would have let start. -/
  heldBack : Option Nat := none
deriving DecidableEq

/-- Keep a node's planned chunks, lowest first, while their attempts fit; `held` are the tasks
the node holds with those kept so far, which added `added` attempts. -/
def fitChunks (state : TaskArrayState) (slots before room : Nat)
    : List Nat → Nat → IndexRangeSet → Nat → IndexRangeSet × Nat × Option Nat
  | [], _, kept, added => (kept, added, none)
  | chunk :: rest, held, kept, added =>
    let tasks := state.tasksIn (.fromRange chunk chunk)
    let cost := min (saturatingAdd held tasks) slots - before
    if cost > room then (kept, added, some (cost - added))
    else fitChunks state slots before room rest (saturatingAdd held tasks) (kept.insert chunk) cost

def slotsOf (nodes : List NodeSlots) (node : NodeId) : Nat :=
  ((nodes.find? (·.node == node)).map (fun candidate => candidate.slots.val)).getD 0

/-- Keep the planned grants whose new attempts fit in `room` more. The first chunk that does not
fit stops its node's grant and every later one. -/
def fitGrants (state : TaskArrayState) (nodes : List NodeSlots)
    : List (NodeId × IndexRangeSet) → Nat → FittedGrants
  | [], _ => {}
  | (node, chunks) :: rest, room =>
    let slots := slotsOf nodes node
    let (kept, added, heldBack) := fitChunks state slots (state.inFlightOn node slots) room
      chunks.iter (state.heldTasks node) ∅ 0
    let grants := if kept.isEmpty then [] else [(node, kept)]
    if heldBack.isSome then { grants, started := added, heldBack }
    else
      let later := fitGrants state nodes rest (room - added)
      { grants := grants ++ later.grants
        started := added + later.started
        heldBack := later.heldBack }

-- One array's sync

/-- The time of a write that carries none yet. -/
def stampedTime (now nowEpochSecs : Nat) : Nat :=
  if nowEpochSecs = 0 then now else nowEpochSecs

def ProgressWrite.stamp (now : Nat) : ProgressWrite → ProgressWrite
  | sync batchId results grants time => sync batchId results grants (stampedTime now time)
  | requeue batchId node time => requeue batchId node (stampedTime now time)
  | unrunnable batchId reason time => unrunnable batchId reason (stampedTime now time)
  | write => write

mutual

/-- Stamp the leader's writes with the tick's time. -/
def TaskArrayWrite.stamp (now : Nat) : TaskArrayWrite → TaskArrayWrite
  | .progress write => .progress (write.stamp now)
  | .cancel batchId time => .cancel batchId (stampedTime now time)
  | .replay batchId node grantDigest time =>
    .replay batchId node grantDigest (stampedTime now time)
  | .cancelManifest batchId time => .cancelManifest batchId (stampedTime now time)
  | .tick writes => .tick (TaskArrayWrite.stampEach now writes)
  | write => write

def TaskArrayWrite.stampEach (now : Nat) : List TaskArrayWrite → List TaskArrayWrite
  | [] => []
  | write :: rest => write.stamp now :: TaskArrayWrite.stampEach now rest

end

structure ArrayProgress where
  batchId : Nat
  slots : Fin u32Size
  /-- Chunks finished at the attempt the leader asked for. -/
  finished : List ChunkResult

namespace TaskArrayState

/-- One report as the planner sees it: passed on if its chunk was not done before the tick and
the preview accepts it. -/
def previewReport (state : TaskArrayState)
    (sofar : TaskArrayState × List (NodeId × ChunkResult)) (report : NodeId × ChunkResult)
    : TaskArrayState × List (NodeId × ChunkResult) :=
  if state.done.contains report.2.chunk then sofar
  else
    match sofar.1.complete report.1 report.2 with
    | .ok (_, next) => (next, sofar.2 ++ [report])
    | .error _ => sofar

/-- The state as if the nodes' reports had been applied, and the reports that were. -/
def preview (state : TaskArrayState) (answers : List (NodeId × ArrayProgress))
    : TaskArrayState × List (NodeId × ChunkResult) :=
  (answers.flatMap (fun answer => answer.2.finished.map (fun result => (answer.1, result)))).foldl
    state.previewReport (state, [])

end TaskArrayState

def answeredSlots (answers : List (NodeId × ArrayProgress)) : List NodeSlots :=
  answers.map (fun answer => ⟨answer.1, answer.2.slots⟩)

/-- The grants of one array's sync, trimmed to `room` more attempts. -/
def fittedGrants (state : TaskArrayState) (answers : List (NodeId × ArrayProgress))
    (replayUnknown : Bool) (room : Nat)
    : FittedGrants :=
  let preview := (state.preview answers).1
  let slots := answeredSlots answers
  fitGrants preview slots (planGrants preview slots replayUnknown) room

/-- Turn the nodes' answers about one array into its single sync for this tick, or none if
nothing changed. The time is stamped later. -/
def planSyncWithin (batchId : Nat) (record : TaskArrayRecord)
    (answers : List (NodeId × ArrayProgress)) (replayUnknown : Bool) (room : Nat)
    : Option TaskArrayWrite × FittedGrants :=
  let results := (record.state.preview answers).2
  let fitted := fittedGrants record.state answers replayUnknown room
  if results.isEmpty && fitted.grants.isEmpty then (none, fitted)
  else
    (some (.progress (.sync batchId results fitted.grants 0)), { fitted with grants := [] })

-- The budget of one tick

def taskReservation (template : JobSpec) : Resources where
  cpuMillicores := (template.cpu.map (·.request)).getD 1000
  memoryBytes := (template.memory.map (·.request)).getD (64 * 2 ^ 20)
  gpus := 0

@[ext] structure AppId where
  name : String
  ns : String
deriving DecidableEq, Repr

structure Placement where
  nodeId : NodeId
  resources : Resources
  /-- The replica's number, unique within its app. -/
  ordinal : Nat
deriving DecidableEq, Repr

/-- Namespace quotas as one tick's grants see them. -/
structure GrantBudget where
  ledger : QuotaLedger

namespace GrantBudget

/-- Attempts of one array that may be in flight; a node that did not answer could run every task
it holds. -/
def inFlight (slots : NodeId → Option Nat) (state : TaskArrayState) : Nat :=
  state.grants.toList.foldl
    (fun sum holder =>
      saturatingAdd sum (state.inFlightOn holder.1 ((slots holder.1).getD (u32Size - 1)))) 0

/-- The budget for this tick, or none when no namespace declares a quota. Apps are charged
first, then every attempt already in flight. -/
def new (quotas : BTreeMap String NamespaceQuota) (placements : List (AppId × List Placement))
    (arrays : TaskArrays) (slots : Nat → NodeId → Option Nat)
    : Option GrantBudget :=
  if quotas.isEmpty then none
  else
    let apps := placements.foldl
      (fun ledger entry => entry.2.foldl
        (fun ledger placement => ledger.chargeTasks entry.1.ns placement.resources 1) ledger)
      ({ quotas } : QuotaLedger)
    let jobs := arrays.active.foldl
      (fun ledger entry => ledger.chargeTasks entry.2.ns (taskReservation entry.2.template)
        (inFlight (slots entry.1) entry.2.state)) apps
    some ⟨jobs⟩

/-- Plan one run's sync within its namespace's remaining quota, charge what it starts, and say
why grants were held back, if they were. -/
def plan (budget : GrantBudget) (batchId : Nat) (record : TaskArrayRecord)
    (answers : List (NodeId × ArrayProgress)) (replayUnknown : Bool)
    : Option TaskArrayWrite × Option QuotaError × GrantBudget :=
  let perTask := taskReservation record.template
  let room := budget.ledger.roomForTasks record.ns perTask
  let (write, fitted) := planSyncWithin batchId record answers replayUnknown room
  let ledger := budget.ledger.chargeTasks record.ns perTask fitted.started
  let blocked := fitted.heldBack.bind (ledger.taskQuotaError record.ns perTask)
  (write, blocked, ⟨ledger⟩)

def planAll (answers : Nat → List (NodeId × ArrayProgress)) (replayUnknown : Nat → Bool)
    : List (Nat × TaskArrayRecord) → GrantBudget → List TaskArrayWrite × GrantBudget
  | [], budget => ([], budget)
  | (batchId, record) :: rest, budget =>
    let (write, _, next) := budget.plan batchId record (answers batchId) (replayUnknown batchId)
    let (later, final) := planAll answers replayUnknown rest next
    (write.toList ++ later, final)

end GrantBudget

-- Shares

/-- Add one to the shares in turn while something is left, which is returned with them; nothing if
a share outgrows 64 bits. -/
def raiseEach : Nat → List Nat → List Nat → Option (List Nat × Nat)
  | left, [], shares => some (shares, left)
  | 0, _ :: _, shares => some (shares, 0)
  | left + 1, index :: rest, shares =>
    if shares.getD index 0 + 1 < u64Size then
      raiseEach left rest (shares.modify index (· + 1))
    else none

/-- The shares in the code's integers, with what its loop leaves over; nothing if a number outgrows
its type. -/
def capacityShares64 (outstanding : Fin u64Size) (slots : List (Fin u32Size))
    : Option (List Nat × Nat) :=
  let total := (slots.map Fin.val).sum
  if total = 0 then some (slots.map (fun _ => 0), 0)
  else
    let weighted := (slots.map Fin.val).map (outstanding.val * ·)
    -- A whole part that didn't fit would become the largest number.
    let shares := weighted.map (fun product => min (product / total) (u64Size - 1))
    let byFraction := (List.range slots.length).insertionSort
      (fun first second => weighted.getD second 0 % total ≤ weighted.getD first 0 % total)
    if total < 2 ^ 128 ∧ (∀ product ∈ weighted, product < 2 ^ 128) ∧ shares.sum < u64Size then
      raiseEach (outstanding.val - shares.sum) byFraction shares
    else none

theorem sum_modify_succ {shares : List Nat} {index : Nat} (inside : index < shares.length)
    : (shares.modify index (· + 1)).sum = shares.sum + 1 := by
  induction shares generalizing index with
  | nil => cases inside
  | cons share rest ih =>
    cases index with
    | zero => simp [Nat.add_right_comm]
    | succ index => simp [ih (Nat.lt_of_succ_lt_succ inside), Nat.add_assoc]

/-- With enough turns nothing is left: the first shares in turn are raised by one. -/
theorem raiseEach_eq {order : List Nat} (nodup : order.Nodup) {left : Nat}
    (enough : left ≤ order.length) {shares : List Nat}
    (inside : ∀ index ∈ order, index < shares.length) (fits : shares.sum + left < u64Size)
    : let raised := shares.mapIdx
        (fun index share => if (order.take left).contains index then share + 1 else share)
      raiseEach left order shares = some (raised, 0) ∧ raised.sum = shares.sum + left := by
  induction left generalizing order shares with
  | zero =>
    have same : shares.mapIdx (fun _ share => share) = shares := List.ext_getElem? (by simp)
    cases order <;> simp [raiseEach, same]
  | succ left ih =>
    cases order with
    | nil => cases enough
    | cons index rest =>
      obtain ⟨once, nodup⟩ := List.nodup_cons.mp nodup
      have here := inside index List.mem_cons_self
      have room : shares.getD index 0 + 1 < u64Size := by
        have := List.le_sum_of_mem (List.getElem_mem here)
        rw [List.getD_eq_getElem _ _ here]
        omega
      have sum := sum_modify_succ here
      obtain ⟨run, total⟩ := @ih _ nodup (Nat.le_of_succ_le_succ enough)
        (shares.modify index (· + 1))
        (fun other listed => by simpa using inside other (List.mem_cons_of_mem _ listed)) (by omega)
      have same : (shares.modify index (· + 1)).mapIdx
          (fun other share => if (rest.take left).contains other then share + 1 else share)
          = shares.mapIdx (fun other share =>
              if ((index :: rest).take (left + 1)).contains other then share + 1 else share) := by
        refine List.ext_getElem? fun other => ?_
        have unlisted : index ∉ rest.take left := fun listed => once (List.mem_of_mem_take listed)
        by_cases isIndex : index = other
        · subst isIndex
          simp [unlisted, Option.map_map, Function.comp_def]
        · simp [isIndex, Ne.symm isIndex]
      rw [raiseEach, if_pos room]
      rw [same] at run total
      exact ⟨run, by omega⟩

/-- Values below a bound fall short of it by one each. -/
theorem sum_add_length_le {Item : Type} {value : Item → Nat} {bound : Nat}
    (below : ∀ item, value item < bound) (items : List Item)
    : (items.map value).sum + items.length ≤ bound * items.length := by
  induction items with
  | nil => rfl
  | cons item rest ih =>
    have := below item
    simp only [List.map_cons, List.sum_cons, List.length_cons, Nat.mul_succ]
    omega

section

variable {order : List Nat} {fraction : Nat → Nat} {total left : Nat}
  (below : ∀ index, fraction index < total) (sum : (order.map fraction).sum = total * left)
include below sum

/-- There are enough nodes for what the whole parts leave over. -/
theorem left_le : left ≤ order.length := by
  have most := sum_add_length_le below order
  rw [sum] at most
  exact Nat.le_of_mul_le_mul_left ((Nat.le_add_right _ _).trans most) (Nat.zero_lt_of_lt (below 0))

/-- Only nodes with a fraction are raised: the others couldn't make up what is left. -/
theorem fraction_pos
    (sorted : order.Pairwise (fun first second => fraction second ≤ fraction first))
    {index : Nat} (raised : index ∈ order.take left)
    : 0 < fraction index := by
  by_contra zero
  have most := sum_add_length_le below (order.take left)
  rw [List.length_take_of_le (left_le below sum)] at most
  rw [← List.take_append_drop left order] at sorted sum
  have none : ((order.drop left).map fraction).sum = 0 := by
    refine List.sum_eq_zero fun amount listed => ?_
    obtain ⟨other, later, rfl⟩ := List.mem_map.mp listed
    have := (List.pairwise_append.mp sorted).2.2 index raised other later
    omega
  rw [List.map_append, List.sum_append, none] at sum
  have turns := List.length_pos_of_mem raised
  rw [List.length_take] at turns
  omega

end

theorem divCeil_eq {product total : Nat} (positive : 0 < total) (part : 0 < product % total)
    : divCeil product total = product / total + 1 := by
  have last : total - 1 < total := Nat.sub_one_lt_of_lt positive
  rw [divCeil, Nat.add_sub_assoc (Nat.succ_le_of_lt positive), Nat.add_div positive,
    Nat.div_eq_of_lt last, Nat.mod_eq_of_lt last, if_pos (by omega)]

/-- The shares of the outstanding chunks add up to them. Each is the node's exact share rounded up
or down, and a node with more slots never gets the smaller one. No number outgrows its type, and the
loop has a node for everything that the whole parts leave over. -/
theorem capacity_shares_exact (outstanding : Fin u64Size) (slots : List (Fin u32Size))
    (few : slots.length < u64Size) (positive : 0 < (slots.map Fin.val).sum)
    : let total := (slots.map Fin.val).sum
      let shares := capacityShares outstanding (slots.map Fin.val)
      capacityShares64 outstanding slots = some (shares, 0)
      ∧ shares.length = slots.length
      ∧ shares.sum = outstanding
      ∧ (∀ (index : Nat) (count : Fin u32Size), slots[index]? = some count
          → shares.getD index 0 = outstanding * count / total
            ∨ shares.getD index 0 = divCeil (outstanding * count) total)
      ∧ ∀ (first second : Nat) (fewer more : Fin u32Size),
          slots[first]? = some fewer → slots[second]? = some more → fewer < more
          → shares.getD first 0 ≤ shares.getD second 0 := by
  intro total shares
  let weighted := (slots.map Fin.val).map (outstanding.val * ·)
  let whole := weighted.map (· / total)
  let left := outstanding - whole.sum
  let fraction (index : Nat) := weighted.getD index 0 % total
  let order := (List.range slots.length).insertionSort
    (fun first second => fraction second ≤ fraction first)
  have perm : order.Perm (List.range slots.length) := List.perm_insertionSort _ _
  have sorted : order.Pairwise (fun first second => fraction second ≤ fraction first) :=
    List.pairwise_insertionSort _ _
  have below (index : Nat) : fraction index < total := Nat.mod_lt _ positive
  have parts : total * whole.sum + (weighted.map (· % total)).sum = total * outstanding := by
    rw [← List.sum_map_mul_left, ← List.sum_map_add]
    simp only [Nat.div_add_mod, List.map_id']
    rw [List.sum_map_mul_left, List.map_id', Nat.mul_comm]
  have least : whole.sum ≤ outstanding :=
    Nat.le_of_mul_le_mul_left ((Nat.le_add_right _ _).trans parts.le) positive
  have fractions : (order.map fraction).sum = total * left := by
    have listed : (List.range slots.length).map fraction = weighted.map (· % total) :=
      List.ext_getElem (by simp [weighted]) (by simp +contextual [fraction, weighted])
    rw [(perm.map fraction).sum_eq, listed, Nat.mul_sub]
    omega
  obtain ⟨run, sum⟩ := @raiseEach_eq order (perm.nodup_iff.mpr List.nodup_range) left
    (left_le below fractions) whole
    (fun index listed => by simpa [whole, weighted] using perm.mem_iff.mp listed) (by omega)
  have raised : shares = whole.mapIdx
      (fun index share => if (order.take left).contains index then share + 1 else share) := by
    simp only [shares, capacityShares, if_neg positive.ne', List.length_map]
    rfl
  rw [← raised] at run sum
  have share {index : Nat} {count : Fin u32Size} (found : slots[index]? = some count)
      : fraction index = outstanding.val * count % total
        ∧ shares.getD index 0 = if index ∈ order.take left then outstanding.val * count / total + 1
          else outstanding.val * count / total := by
    simp [fraction, raised, whole, weighted, found]
  refine ⟨?_, by simp [raised, whole, weighted], by omega, ?_, ?_⟩
  · have each : weighted.map (fun product => min (product / total) (u64Size - 1)) = whole := by
      refine List.map_congr_left fun product listed => Nat.min_eq_left ?_
      have : product / total ≤ whole.sum := List.le_sum_of_mem (List.mem_map_of_mem listed)
      omega
    have products : ∀ product ∈ weighted, product < 2 ^ 128 := by
      simp only [weighted, List.map_map, List.mem_map]
      rintro _ ⟨count, _, rfl⟩
      exact (Nat.mul_lt_mul'' outstanding.isLt count.isLt).trans (by decide)
    have narrow : total < 2 ^ 128 := by
      have size := sum_add_length_le Fin.isLt slots
      have := Nat.mul_lt_mul_of_pos_left few (show 0 < u32Size by decide)
      have : u32Size * u64Size < 2 ^ 128 := by decide
      omega
    simp only [capacityShares64, if_neg positive.ne']
    rw [each, if_pos ⟨narrow, products, by omega⟩]
    exact run
  · intro index count found
    obtain ⟨isFraction, isShare⟩ := share found
    rw [isShare]
    split
    · rename_i up
      have rounded := fraction_pos below fractions sorted up
      exact .inr (divCeil_eq positive (isFraction ▸ rounded)).symm
    · exact .inl rfl
  · intro first second fewer more isFirst isSecond less
    obtain ⟨isFraction, isShare⟩ := share isFirst
    obtain ⟨otherFraction, otherShare⟩ := share isSecond
    rw [isShare, otherShare]
    have quotients :=
      Nat.div_le_div_right (c := total) (Nat.mul_le_mul_left outstanding.val less.le)
    split
    · rename_i up
      split
      · omega
      rename_i down
      have rounded := fraction_pos below fractions sorted up
      -- With the same whole part, the node with more slots has the larger fraction and comes first.
      have listed : second ∈ order :=
        perm.mem_iff.mpr (List.mem_range.mpr (List.getElem?_eq_some_iff.mp isSecond).1)
      rw [← List.take_append_drop left order] at listed sorted
      have smaller := (List.pairwise_append.mp sorted).2.2 first up second
        ((List.mem_append.mp listed).resolve_left down)
      have some : 0 < outstanding.val := by
        by_contra zero
        simp [isFraction, Nat.eq_zero_of_not_pos zero] at rounded
      have heavier := Nat.mul_lt_mul_of_pos_left less some
      by_contra short
      have same : outstanding.val * fewer / total = outstanding.val * more / total := by omega
      have parts := Nat.div_add_mod (outstanding.val * fewer) total
      have otherParts := Nat.div_add_mod (outstanding.val * more) total
      rw [same] at parts
      omega
    · split <;> omega

/-- Of twenty chunks, a node with 27 slots gets fifteen and one with 8 slots five. -/
theorem twenty_chunks_split
    : capacityShares64 ⟨20, by decide⟩ [⟨27, by decide⟩, ⟨8, by decide⟩] = some ([15, 5], 0) := by
  rw [(capacity_shares_exact _ _ (by decide) (by decide)).1]
  decide

end Reliaburger
