import Reliaburger.Meat.Scheduler

/-! How the cache changes node by node. Placing workloads only changes what is allocated on a node
and how many replicas it runs, and never allocates more than fits.
-/

namespace Reliaburger

open BTreeMap ClusterStateCache Resources

-- Resources field by field

namespace Resources

/-- Resources are compared field by field. -/
instance : LE Resources where
  le left right :=
    left.cpuMillicores ≤ right.cpuMillicores ∧ left.memoryBytes ≤ right.memoryBytes
    ∧ left.gpus ≤ right.gpus

instance : Max Resources where
  max left right :=
    ⟨max left.cpuMillicores right.cpuMillicores, max left.memoryBytes right.memoryBytes,
      max left.gpus right.gpus⟩

instance (left right : Resources) : Decidable (left ≤ right) :=
  inferInstanceAs (Decidable (_ ∧ _))

variable {first second third : Resources}

theorem le_iff
    : first ≤ second
      ↔ first.cpuMillicores ≤ second.cpuMillicores ∧ first.memoryBytes ≤ second.memoryBytes
        ∧ first.gpus ≤ second.gpus :=
  Iff.rfl

theorem le_refl (resources : Resources) : resources ≤ resources :=
  ⟨Nat.le_refl _, Nat.le_refl _, Nat.le_refl _⟩

theorem le_trans (left : first ≤ second) (right : second ≤ third) : first ≤ third :=
  ⟨left.1.trans right.1, left.2.1.trans right.2.1, left.2.2.trans right.2.2⟩

theorem le_max_right (first second : Resources) : second ≤ max first second :=
  ⟨Nat.le_max_right _ _, Nat.le_max_right _ _, Nat.le_max_right _ _⟩

theorem max_le (left : first ≤ third) (right : second ≤ third) : max first second ≤ third :=
  ⟨Nat.max_le.mpr ⟨left.1, right.1⟩, Nat.max_le.mpr ⟨left.2.1, right.2.1⟩,
    Nat.max_le.mpr ⟨left.2.2, right.2.2⟩⟩

theorem le_max_left (first second : Resources) : first ≤ max first second :=
  ⟨Nat.le_max_left _ _, Nat.le_max_left _ _, Nat.le_max_left _ _⟩

/-- A request fits iff it is at most what there is. -/
theorem fits_iff : first.fits second = true ↔ second ≤ first := by
  rw [fits, Bool.and_eq_true, Bool.and_eq_true, decide_eq_true_eq, decide_eq_true_eq,
    decide_eq_true_eq, and_assoc, le_iff]

/-- A request that fits what is left of a capacity stays within it, or asks for none of what is
used beyond it. -/
theorem saturatingAdd_le {capacity used request : Resources}
    (room : (capacity.saturatingSub used).fits request = true)
    : used.saturatingAdd request ≤ max capacity used := by
  obtain ⟨cpu, memory, gpus⟩ := fits_iff.mp room
  simp only [saturatingSub] at cpu memory gpus
  refine le_iff.mpr ⟨?_, ?_, ?_⟩
  · show Reliaburger.saturatingAdd used.cpuMillicores request.cpuMillicores
      ≤ max capacity.cpuMillicores used.cpuMillicores
    rw [Reliaburger.saturatingAdd]
    omega
  · show Reliaburger.saturatingAdd used.memoryBytes request.memoryBytes
      ≤ max capacity.memoryBytes used.memoryBytes
    rw [Reliaburger.saturatingAdd]
    omega
  · show saturatingAdd32 used.gpus request.gpus ≤ max capacity.gpus used.gpus
    rw [saturatingAdd32]
    omega

end Resources

-- Nodes that differ in what runs on them

namespace SchedulerNodeState

/-- Two states of a node that differ in what is allocated only. -/
def Alike (node other : SchedulerNodeState) : Prop :=
  other = { node with allocated := other.allocated, appReplicas := other.appReplicas }

variable {node other third : SchedulerNodeState} {requirements : WorkloadRequirements}

theorem Alike.refl (node : SchedulerNodeState) : node.Alike node := rfl

theorem Alike.trans (first : node.Alike other) (second : other.Alike third) : node.Alike third := by
  rw [Alike, second, first]

theorem Alike.allocatable (alike : node.Alike other) : other.allocatable = node.allocatable := by
  rw [alike]

theorem Alike.nodeCanRun (alike : node.Alike other)
    : Reliaburger.nodeCanRun other requirements = Reliaburger.nodeCanRun node requirements := by
  rw [alike]
  rfl

theorem Alike.matchesLabels (alike : node.Alike other) (required : BTreeMap String String)
    : other.matchesLabels required = node.matchesLabels required := by
  rw [alike]
  rfl

/-- The same node, with no more allocated than fits it or was allocated before. -/
structure Within (node other : SchedulerNodeState) : Prop where
  alike : node.Alike other
  bounded : other.allocated ≤ max node.allocatable node.allocated

theorem Within.refl (node : SchedulerNodeState) : node.Within node :=
  ⟨.refl node, le_max_right _ _⟩

theorem Within.trans (first : node.Within other) (second : other.Within third)
    : node.Within third := by
  refine ⟨first.alike.trans second.alike, ?_⟩
  refine le_trans second.bounded ?_
  rw [first.alike.allocatable]
  exact max_le (le_max_left _ _) first.bounded

theorem reserve_within {appId : AppId} {resources : Resources}
    (room : node.canFit resources = true)
    : node.Within (node.reserve appId resources) :=
  ⟨rfl, saturatingAdd_le room⟩

/-- A copy that takes the place of another fits the room that one gives back. -/
theorem replace_within {appId : AppId} {committed resources : Resources}
    (room : (node.release appId committed).canFit resources = true)
    : node.Within ((node.release appId committed).reserve appId resources) := by
  refine ⟨rfl, le_trans (saturatingAdd_le room) ?_⟩
  exact max_le (le_max_left _ _) (le_trans
    ⟨Nat.sub_le _ _, Nat.sub_le _ _, Nat.sub_le _ _⟩ (le_max_right _ _))

end SchedulerNodeState

-- Caches node by node

namespace ClusterStateCache

variable {cache other third : ClusterStateCache} {nodeId : NodeId}
  {R : SchedulerNodeState → SchedulerNodeState → Prop}

/-- An update changes its own node and no other. -/
theorem nodes_update (change : SchedulerNodeState → SchedulerNodeState) (id : NodeId)
    : (cache.update nodeId change).nodes[id]?
      = if nodeId = id then cache.nodes[id]?.map change else cache.nodes[id]? := by
  rw [update]
  split
  · rename_i node found
    show (cache.nodes.insert nodeId (change node))[id]? = _
    rw [get_insert]
    split
    · rename_i same
      subst same
      rw [found]
      rfl
    · rfl
  · rename_i absent
    split
    · rename_i same
      subst same
      rw [absent]
      rfl
    · rfl

theorem refusals_update (change : SchedulerNodeState → SchedulerNodeState)
    : (cache.update nodeId change).capacityRefusals = cache.capacityRefusals := by
  rw [update]
  split <;> rfl

/-- The caches have the same nodes, each related by `R`, and the same refusals. -/
structure Related (R : SchedulerNodeState → SchedulerNodeState → Prop)
    (cache other : ClusterStateCache)
    : Prop where
  nodes : ∀ id : NodeId, Option.Rel R cache.nodes[id]? other.nodes[id]?
  refusals : other.capacityRefusals = cache.capacityRefusals

theorem Related.refl (refl : ∀ node, R node node) (cache : ClusterStateCache)
    : Related R cache cache := by
  refine ⟨fun id => ?_, rfl⟩
  cases cache.nodes[id]? with
  | none => exact .none
  | some node => exact .some (refl node)

theorem Related.trans (trans : ∀ {node middle last}, R node middle → R middle last → R node last)
    (first : Related R cache other) (second : Related R other third)
    : Related R cache third := by
  refine ⟨fun id => ?_, second.refusals.trans first.refusals⟩
  have left := first.nodes id
  have right := second.nodes id
  revert left right
  cases cache.nodes[id]? <;> cases other.nodes[id]? <;> cases third.nodes[id]?
    <;> intro left right <;> cases left <;> cases right
  · exact .none
  · next left right => exact .some (trans left right)

/-- An update relates the caches if it relates the node that it changes. -/
theorem Related.update (refl : ∀ node, R node node)
    {change : SchedulerNodeState → SchedulerNodeState}
    (changes : ∀ node, cache.nodes[nodeId]? = some node → R node (change node))
    : Related R cache (cache.update nodeId change) := by
  refine ⟨fun id => ?_, refusals_update change⟩
  rw [nodes_update]
  split
  · rename_i same
    subst same
    cases found : cache.nodes[nodeId]? with
    | none => exact .none
    | some node => exact .some (changes node found)
  · cases cache.nodes[id]? with
    | none => exact .none
    | some node => exact .some (refl node)

/-- Steps that relate the caches do so in a row, by induction on the items. -/
theorem Related.foldl (refl : ∀ node, R node node)
    (trans : ∀ {node middle last}, R node middle → R middle last → R node last) {Item : Type}
    {step : ClusterStateCache → Item → ClusterStateCache} {items : List Item}
    (steps : ∀ item ∈ items, ∀ cache, Related R cache (step cache item))
    (cache : ClusterStateCache)
    : Related R cache (items.foldl step cache) := by
  induction items generalizing cache with
  | nil => exact .refl refl cache
  | cons item rest ih =>
    exact (steps item List.mem_cons_self cache).trans trans
      (ih (List.forall_mem_cons.mp steps).2 _)

theorem Related.mono {S : SchedulerNodeState → SchedulerNodeState → Prop}
    (weaker : ∀ {node middle}, R node middle → S node middle) (related : Related R cache other)
    : Related S cache other := by
  refine ⟨fun id => ?_, related.refusals⟩
  have left := related.nodes id
  revert left
  cases cache.nodes[id]? <;> cases other.nodes[id]? <;> intro left <;> cases left
  · exact .none
  · next left => exact .some (weaker left)

theorem Related.node (related : Related R cache other) {node : SchedulerNodeState}
    (found : other.nodes[nodeId]? = some node)
    : ∃ before, cache.nodes[nodeId]? = some before ∧ R before node := by
  have left := related.nodes nodeId
  rw [found] at left
  revert left
  cases cache.nodes[nodeId]? with
  | none => intro left; cases left
  | some before =>
    intro left
    cases left with
    | some related => exact ⟨before, rfl, related⟩

theorem Related.nodeAfter (related : Related R cache other) {node : SchedulerNodeState}
    (found : cache.nodes[nodeId]? = some node)
    : ∃ after, other.nodes[nodeId]? = some after ∧ R node after := by
  have left := related.nodes nodeId
  rw [found] at left
  revert left
  cases other.nodes[nodeId]? with
  | none => intro left; cases left
  | some after =>
    intro left
    cases left with
    | some related => exact ⟨after, rfl, related⟩

/-- The same nodes with other workloads on them. -/
abbrev Alike (cache other : ClusterStateCache) : Prop :=
  Related SchedulerNodeState.Alike cache other

/-- The same nodes, none with more allocated than fits it or was allocated before. -/
abbrev Within (cache other : ClusterStateCache) : Prop :=
  Related SchedulerNodeState.Within cache other

theorem Within.refl (cache : ClusterStateCache) : cache.Within cache :=
  Related.refl SchedulerNodeState.Within.refl cache

theorem Within.trans (first : cache.Within other) (second : other.Within third)
    : cache.Within third :=
  Related.trans SchedulerNodeState.Within.trans first second

theorem Within.alike (within : cache.Within other) : cache.Alike other :=
  Related.mono SchedulerNodeState.Within.alike within

theorem Alike.refl (cache : ClusterStateCache) : cache.Alike cache :=
  Related.refl SchedulerNodeState.Alike.refl cache

theorem Alike.trans (first : cache.Alike other) (second : other.Alike third)
    : cache.Alike third :=
  Related.trans SchedulerNodeState.Alike.trans first second

theorem update_alike {change : SchedulerNodeState → SchedulerNodeState}
    (changes : ∀ node, SchedulerNodeState.Alike node (change node))
    : cache.Alike (cache.update nodeId change) :=
  Related.update SchedulerNodeState.Alike.refl fun node _ => changes node

theorem reserve_alike (appId : AppId) (resources : Resources)
    : cache.Alike (cache.reserve nodeId appId resources) :=
  update_alike fun _ => rfl

theorem release_alike (appId : AppId) (resources : Resources)
    : cache.Alike (cache.release nodeId appId resources) :=
  update_alike fun _ => rfl

theorem setReplicas_within (appId : AppId) (count : Nat)
    : cache.Within (cache.setReplicas nodeId appId count) :=
  Related.update SchedulerNodeState.Within.refl fun _ _ => ⟨rfl, le_max_right _ _⟩

theorem reserve_within {appId : AppId} {resources : Resources}
    (room : ∀ node, cache.nodes[nodeId]? = some node → node.canFit resources = true)
    : cache.Within (cache.reserve nodeId appId resources) :=
  Related.update SchedulerNodeState.Within.refl fun node found =>
    SchedulerNodeState.reserve_within (room node found)

section

variable {step : ClusterStateCache → NodeId → ClusterStateCache}
  {change : NodeId → SchedulerNodeState → SchedulerNodeState}
  (acts : ∀ cache nodeId id, (step cache nodeId).nodes[id]?
    = if nodeId = id then cache.nodes[id]?.map (change id) else cache.nodes[id]?)
include acts

/-- Changes of distinct nodes, one after the other, change each node of the list once. -/
theorem nodes_foldl
    {items : List NodeId} (nodup : items.Nodup) (cache : ClusterStateCache) (id : NodeId)
    : (items.foldl step cache).nodes[id]?
      = if id ∈ items then cache.nodes[id]?.map (change id) else cache.nodes[id]? := by
  induction items generalizing cache with
  | nil => rfl
  | cons first rest ih =>
    obtain ⟨fresh, nodup⟩ := List.nodup_cons.mp nodup
    rw [List.foldl_cons, ih nodup, acts]
    by_cases same : first = id
    · subst same
      rw [if_neg fresh, if_pos rfl, if_pos List.mem_cons_self]
    · rw [if_neg same]
      simp only [List.mem_cons, show ¬id = first from fun eq => same eq.symm, false_or]

/-- A change of every node of the cache. -/
theorem nodes_foldl_keys (cache : ClusterStateCache) (id : NodeId)
    : (cache.nodes.keys.foldl step cache).nodes[id]? = cache.nodes[id]?.map (change id) := by
  rw [nodes_foldl acts Std.ExtTreeMap.nodup_keys]
  split
  · rfl
  rename_i absent
  rw [Std.ExtTreeMap.mem_keys, not_mem_iff] at absent
  rw [absent]
  rfl

end

theorem refusals_foldl {Item : Type} {step : ClusterStateCache → Item → ClusterStateCache}
    (keeps : ∀ cache item, (step cache item).capacityRefusals = cache.capacityRefusals)
    (items : List Item) (cache : ClusterStateCache)
    : (items.foldl step cache).capacityRefusals = cache.capacityRefusals := by
  induction items generalizing cache with
  | nil => rfl
  | cons item rest ih => rw [List.foldl_cons, ih, keeps]

end ClusterStateCache

-- Placing workloads

section

variable {cluster : ClusterStateCache} {requirements : WorkloadRequirements} {nodeId : NodeId}
  {appId : AppId} {preferred : BTreeMap String String} {image : Option String}

/-- The nodes that pass are those of the cache that pass the filter. -/
theorem mem_filterNodes
    : nodeId ∈ filterNodes requirements cluster
      ↔ ∃ node, cluster.nodes[nodeId]? = some node ∧ passesFilter requirements node = true := by
  rw [filterNodes, List.mem_map]
  constructor
  · rintro ⟨⟨_, node⟩, listed, rfl⟩
    rw [List.mem_filter, mem_toList] at listed
    exact ⟨node, listed.1, listed.2⟩
  · rintro ⟨node, found, passes⟩
    exact ⟨(nodeId, node), List.mem_filter.mpr ⟨mem_toList.mpr found, passes⟩, rfl⟩

theorem passesFilter_iff {node : SchedulerNodeState}
    : passesFilter requirements node = true
      ↔ nodeCanRun node requirements = true ∧ node.matchesLabels requirements.labels = true
        ∧ node.canFit requirements.resources = true := by
  rw [passesFilter, Bool.and_eq_true, Bool.and_eq_true, and_assoc]

/-- The node selected for a replica passes the filter. -/
theorem selectNode_mem
    (selected : selectNode appId requirements preferred image cluster = some nodeId)
    : nodeId ∈ filterNodes requirements cluster := by
  obtain ⟨_, first, rfl⟩ := Option.map_eq_some_iff.mp selected
  have listed := (List.mem_insertionSort _).mp (List.mem_of_head? first)
  obtain ⟨_, passes, made⟩ := List.mem_filterMap.mp listed
  obtain ⟨node, _, rfl⟩ := Option.map_eq_some_iff.mp made
  exact passes

/-- Every placed replica is on a node that passed the filter once the replicas before it were
reserved. -/
theorem scheduleFrom_filtered {count ordinal : Nat} {cluster : ClusterStateCache}
    {placement : Placement}
    (listed : placement
      ∈ (scheduleFrom appId requirements preferred image ordinal count cluster).placements)
    : placement.resources = requirements.resources
      ∧ ∃ earlier, cluster.Alike earlier
        ∧ placement.nodeId ∈ filterNodes requirements earlier := by
  induction count generalizing ordinal cluster with
  | zero => cases listed
  | succ count ih =>
    rw [scheduleFrom] at listed
    split at listed
    · cases listed
    rename_i nodeId selected
    rcases List.mem_cons.mp listed with rfl | listed
    · exact ⟨rfl, cluster, .refl cluster, selectNode_mem selected⟩
    · obtain ⟨same, earlier, alike, passes⟩ := ih listed
      exact ⟨same, earlier, (reserve_alike _ _).trans alike, passes⟩

/-- What is placed and what is not makes up the replicas, by induction on them. -/
theorem length_scheduleFrom (count ordinal : Nat) (cluster : ClusterStateCache)
    : (scheduleFrom appId requirements preferred image ordinal count cluster).placements.length
        + ((scheduleFrom appId requirements preferred image ordinal count cluster).unplaced.map
            Unplaced.missing).getD 0
      = count := by
  induction count generalizing ordinal cluster with
  | zero => rfl
  | succ count ih =>
    rw [scheduleFrom]
    split
    · simp
    rename_i nodeId selected
    have later := ih (ordinal + 1) (cluster.reserve nodeId appId requirements.resources)
    simp only [List.length_cons]
    omega

/-- No replica goes where it does not fit, by induction on the replicas. -/
theorem scheduleFrom_within (count ordinal : Nat) (cluster : ClusterStateCache)
    : cluster.Within (scheduleFrom appId requirements preferred image ordinal count cluster).cluster
      := by
  induction count generalizing ordinal cluster with
  | zero => exact .refl cluster
  | succ count ih =>
    rw [scheduleFrom]
    split
    · exact .refl cluster
    rename_i selected
    refine (reserve_within fun node found => ?_).trans (ih _ _)
    obtain ⟨_, found', passes⟩ := mem_filterNodes.mp (selectNode_mem selected)
    rw [found] at found'
    obtain rfl := Option.some.inj found'
    exact (passesFilter_iff.mp passes).2.2

/-- A node once its committed copy of an app is credited back. -/
def creditNode (appId : AppId) (credit : BTreeMap NodeId Resources) (nodeId : NodeId)
    (node : SchedulerNodeState)
    : SchedulerNodeState :=
  if 0 < node.replicasOf appId then
    match credit[nodeId]? with
    | some committed => node.release appId committed
    | none => node
  else node

variable {credit : BTreeMap NodeId Resources}

theorem creditNode_alike (node : SchedulerNodeState)
    : node.Alike (creditNode appId credit nodeId node) := by
  rw [creditNode]
  split
  · split <;> rfl
  · rfl

theorem nodes_creditCopy (cluster : ClusterStateCache) (nodeId id : NodeId)
    : (creditCopy appId credit cluster nodeId).nodes[id]?
      = if nodeId = id then cluster.nodes[id]?.map (creditNode appId credit id)
        else cluster.nodes[id]? := by
  by_cases same : nodeId = id
  · subst same
    rw [if_pos rfl, creditCopy]
    cases found : cluster.nodes[nodeId]? with
    | none => exact found
    | some node =>
      rw [Option.any_some, Option.map_some, creditNode]
      by_cases running : 0 < node.replicasOf appId
      · rw [decide_eq_true running, if_pos rfl, if_pos running]
        cases credit[nodeId]? with
        | none => exact found
        | some committed =>
          show (cluster.release nodeId appId committed).nodes[nodeId]? = _
          rw [release, nodes_update, if_pos rfl, found]
          rfl
      · rw [decide_eq_false running, if_neg Bool.false_ne_true, if_neg running]
        exact found
  · rw [if_neg same, creditCopy]
    split
    · split
      · rw [release, nodes_update, if_neg same]
      · rfl
    · rfl

/-- A candidate passes with its own copy credited back. -/
theorem mem_daemonCandidates
    : nodeId ∈ daemonCandidates cluster appId credit requirements
      ↔ ∃ node, cluster.nodes[nodeId]? = some node
        ∧ passesFilter requirements (creditNode appId credit nodeId node) = true := by
  rw [daemonCandidates, mem_filterNodes]
  simp only [nodes_foldl_keys (@nodes_creditCopy appId credit), Option.map_eq_some_iff]
  constructor
  · rintro ⟨_, ⟨node, found, rfl⟩, passes⟩
    exact ⟨node, found, passes⟩
  · rintro ⟨node, found, passes⟩
    exact ⟨_, ⟨node, found, rfl⟩, passes⟩

theorem nodes_placeCopy (cluster : ClusterStateCache) (nodeId id : NodeId)
    : (placeCopy appId credit requirements cluster nodeId).nodes[id]?
      = if nodeId = id then cluster.nodes[id]?.map (fun node =>
          (creditNode appId credit id node).reserve appId requirements.resources)
        else cluster.nodes[id]? := by
  rw [placeCopy, reserve, nodes_update, nodes_creditCopy]
  split
  · rw [Option.map_map]
    rfl
  · rfl

theorem creditCopy_refusals (cluster : ClusterStateCache) (nodeId : NodeId)
    : (creditCopy appId credit cluster nodeId).capacityRefusals = cluster.capacityRefusals := by
  rw [creditCopy]
  split
  · split
    · exact refusals_update _
    · rfl
  · rfl

theorem creditNode_within {node : SchedulerNodeState}
    (room : (creditNode appId credit nodeId node).canFit requirements.resources = true)
    : node.Within ((creditNode appId credit nodeId node).reserve appId requirements.resources) := by
  rw [creditNode] at room ⊢
  split
  · rename_i running
    rw [if_pos running] at room
    split
    · rename_i committed found
      rw [found] at room
      exact SchedulerNodeState.replace_within room
    · rename_i absent
      rw [absent] at room
      exact SchedulerNodeState.reserve_within room
  · rename_i idle
    rw [if_neg idle] at room
    exact SchedulerNodeState.reserve_within room

theorem nodup_daemonCandidates
    : (daemonCandidates cluster appId credit requirements).Nodup :=
  ((List.filter_sublist).map Prod.fst).nodup (nodup_keys_toList _)

/-- What a daemon set's placement does to a node. -/
theorem nodes_scheduleDaemon (id : NodeId)
    : (scheduleDaemon appId credit requirements cluster).cluster.nodes[id]?
      = if id ∈ daemonCandidates cluster appId credit requirements then
          cluster.nodes[id]?.map (fun node =>
            (creditNode appId credit id node).reserve appId requirements.resources)
        else cluster.nodes[id]? :=
  nodes_foldl (@nodes_placeCopy requirements appId credit)
    nodup_daemonCandidates cluster id

/-- No copy goes where it does not fit. -/
theorem scheduleDaemon_within
    : cluster.Within (scheduleDaemon appId credit requirements cluster).cluster := by
  refine ⟨fun id => ?_, refusals_foldl (fun cache item => ?_) _ _⟩
  · rw [nodes_scheduleDaemon]
    split
    · rename_i candidate
      obtain ⟨node, found, passes⟩ := mem_daemonCandidates.mp candidate
      rw [found]
      exact .some (creditNode_within (passesFilter_iff.mp passes).2.2)
    · cases cluster.nodes[id]? with
      | none => exact .none
      | some node => exact .some (.refl node)
  · exact (refusals_update _).trans (creditCopy_refusals cache item)

/-- Placing an app overbooks no node. -/
theorem placeApp_within (spec : WorkloadSpec) (replicas : Replicas) (dnsRequired : Bool)
    : cluster.Within (placeApp appId spec replicas dnsRequired credit cluster).cluster := by
  cases replicas with
  | fixed count => exact scheduleFrom_within count 0 cluster
  | daemonSet => exact scheduleDaemon_within

end

end Reliaburger
