import Reliaburger.Cluster.Decisions

/-! While no committed placement shrinks, the turns of other apps only take room: a node that a
daemon set can use at its turn was eligible when the pass counted what it wants.
-/

namespace Reliaburger

open BTreeMap Resources

def Resources.largest : Resources :=
  ⟨u64Size - 1, u64Size - 1, u32Size - 1⟩

namespace Resources

variable {used more given request : Resources}

theorem saturatingAdd_le_largest (used request : Resources)
    : used.saturatingAdd request ≤ largest :=
  ⟨Nat.min_le_right _ _, Nat.min_le_right _ _, Nat.min_le_right _ _⟩

theorem le_saturatingAdd (representable : used ≤ largest)
    : used ≤ used.saturatingAdd request :=
  ⟨Nat.le_min.mpr ⟨Nat.le_add_right _ _, representable.1⟩, Nat.le_min.mpr ⟨Nat.le_add_right _ _,
    representable.2.1⟩, Nat.le_min.mpr ⟨Nat.le_add_right _ _, representable.2.2⟩⟩

/-- What is given back for no less leaves no less in use. -/
theorem le_sub_saturatingAdd (representable : used ≤ largest) (grows : given ≤ request)
    : used ≤ (used.saturatingSub given).saturatingAdd request := by
  obtain ⟨cpu, memory, gpus⟩ := grows
  refine ⟨Nat.le_min.mpr ⟨?_, representable.1⟩, Nat.le_min.mpr ⟨?_, representable.2.1⟩,
    Nat.le_min.mpr ⟨?_, representable.2.2⟩⟩
  all_goals
    simp only [saturatingSub]
    omega

/-- More in use leaves less room. -/
theorem fits_of_less {capacity : Resources} (less : used ≤ more)
    (room : (capacity.saturatingSub more).fits request = true)
    : (capacity.saturatingSub used).fits request = true := by
  refine fits_iff.mpr (le_trans (fits_iff.mp room) ⟨?_, ?_, ?_⟩)
  · exact Nat.sub_le_sub_left less.1 _
  · exact Nat.sub_le_sub_left less.2.1 _
  · exact Nat.sub_le_sub_left less.2.2 _

end Resources

-- Nodes that other apps use more

namespace SchedulerNodeState

variable {appId other : AppId} {node middle last : SchedulerNodeState}
  {given resources : Resources}

/-- The same node with as many replicas of an app, and with no less allocated. -/
structure Busier (appId : AppId) (node last : SchedulerNodeState) : Prop where
  alike : node.Alike last
  grown
    : node.allocated ≤ .largest → node.allocated ≤ last.allocated ∧ last.allocated ≤ .largest
  same : last.replicasOf appId = node.replicasOf appId

theorem Busier.refl (node : SchedulerNodeState) : node.Busier appId node :=
  ⟨.refl node, fun bounded => ⟨le_refl _, bounded⟩, rfl⟩

theorem Busier.trans (first : node.Busier appId middle) (second : middle.Busier appId last)
    : node.Busier appId last := by
  refine ⟨first.alike.trans second.alike, fun bounded => ?_, second.same.trans first.same⟩
  obtain ⟨more, bounded⟩ := first.grown bounded
  obtain ⟨most, bounded⟩ := second.grown bounded
  exact ⟨le_trans more most, bounded⟩

section

variable (different : other ≠ appId)
include different

theorem reserve_busier
    : node.Busier appId (node.reserve other resources) := by
  refine ⟨rfl, fun bounded => ⟨le_saturatingAdd bounded, saturatingAdd_le_largest _ _⟩, ?_⟩
  show (node.appReplicas.insert other _)[appId]?.getD 0 = node.appReplicas[appId]?.getD 0
  rw [get_insert_ne _ _ different]

theorem setReplicas_busier (count : Nat)
    : node.Busier appId (node.setReplicas other count) := by
  refine ⟨rfl, fun bounded => ⟨le_refl _, bounded⟩, ?_⟩
  rw [setReplicas, replicasOf, replicasOf]
  dsimp only
  split
  · rw [get_erase_ne _ different]
  · rw [get_insert_ne _ _ different]

theorem replicasOf_release_ne
    : (node.release other resources).replicasOf appId = node.replicasOf appId := by
  rw [release, replicasOf]
  dsimp only
  split
  · rw [get_erase_ne _ different]
    rfl
  · rw [get_insert_ne _ _ different]
    rfl

/-- A copy that takes the place of one that is no larger. -/
theorem replace_busier (grows : given ≤ resources)
    : node.Busier appId ((node.release other given).reserve other resources) := by
  refine ⟨rfl, fun bounded => ⟨le_sub_saturatingAdd bounded grows,
    saturatingAdd_le_largest _ _⟩, ?_⟩
  exact (reserve_busier different).same.trans (replicasOf_release_ne different)

end

theorem creditNode_busier {credit : BTreeMap NodeId Resources} {nodeId : NodeId}
    (grows : ∀ committed, credit[nodeId]? = some committed → committed ≤ resources)
    (different : other ≠ appId)
    : node.Busier appId ((creditNode other credit nodeId node).reserve other resources) := by
  rw [creditNode]
  split
  · split
    · next committed known => exact replace_busier different (grows committed known)
    · exact reserve_busier different
  · exact reserve_busier different

/-- A busier node passes a filter only if the node passes it, with the copies of the app credited
back on both. -/
theorem Busier.passesFilter {credit : BTreeMap NodeId Resources} {nodeId : NodeId}
    {requirements : WorkloadRequirements} (busier : node.Busier appId last)
    (representable : node.allocated ≤ .largest)
    (passes : passesFilter requirements (creditNode appId credit nodeId last) = true)
    : Reliaburger.passesFilter requirements (creditNode appId credit nodeId node) = true := by
  obtain ⟨runs, labels, room⟩ := passesFilter_iff.mp passes
  rw [(creditNode_alike last).nodeCanRun, busier.alike.nodeCanRun] at runs
  rw [(creditNode_alike last).matchesLabels, busier.alike.matchesLabels] at labels
  refine passesFilter_iff.mpr ⟨?_, ?_, ?_⟩
  · rw [(creditNode_alike node).nodeCanRun]
    exact runs
  · rw [(creditNode_alike node).matchesLabels]
    exact labels
  · have less := (busier.grown representable).1
    rw [canFit, available, (creditNode_alike last).allocatable, busier.alike.allocatable] at room
    rw [canFit, available, (creditNode_alike node).allocatable]
    refine fits_of_less ?_ room
    rw [creditNode, creditNode, busier.same]
    split
    · split
      · exact ⟨Nat.sub_le_sub_right less.1 _, Nat.sub_le_sub_right less.2.1 _,
          Nat.sub_le_sub_right less.2.2 _⟩
      · exact less
    · exact less

end SchedulerNodeState

-- The turns of other apps

/-- The same nodes, none with less allocated, each with as many replicas of an app. -/
abbrev ClusterStateCache.Busier (appId : AppId) (cache other : ClusterStateCache) : Prop :=
  ClusterStateCache.Related (SchedulerNodeState.Busier appId) cache other

theorem ClusterStateCache.Busier.refl {appId : AppId} (cache : ClusterStateCache)
    : cache.Busier appId cache :=
  Related.refl SchedulerNodeState.Busier.refl cache

theorem ClusterStateCache.Busier.trans {appId : AppId} {cache other third : ClusterStateCache}
    (first : cache.Busier appId other) (second : other.Busier appId third)
    : cache.Busier appId third :=
  Related.trans SchedulerNodeState.Busier.trans first second

namespace Pass

variable {pass : Pass} {cache prepared turn : ClusterStateCache} {app : AppPass} {appId : AppId}
  {kept : List Placement} {replicas : Replicas}

theorem reserve_busier {nodeId : NodeId} {resources : Resources} (different : app.appId ≠ appId)
    : cache.Busier appId (cache.reserve nodeId app.appId resources) :=
  ClusterStateCache.Related.update SchedulerNodeState.Busier.refl fun _ _ =>
    SchedulerNodeState.reserve_busier different

theorem reserveAll_busier {resources : Resources} (different : app.appId ≠ appId)
    (homes : List Placement) (cache : ClusterStateCache)
    : cache.Busier appId (reserveAll cache app.appId resources homes) :=
  ClusterStateCache.Related.foldl SchedulerNodeState.Busier.refl SchedulerNodeState.Busier.trans
    (fun _ _ _ => reserve_busier different) cache

theorem countKeptReplicas_busier (different : app.appId ≠ appId) (kept : List Placement)
    (cache : ClusterStateCache)
    : cache.Busier appId (countKeptReplicas cache app.appId kept) :=
  ClusterStateCache.Related.foldl SchedulerNodeState.Busier.refl SchedulerNodeState.Busier.trans
    (fun _ _ _ => ClusterStateCache.Related.update SchedulerNodeState.Busier.refl fun _ _ =>
      SchedulerNodeState.setReplicas_busier different _) cache

theorem scheduleFrom_busier {requirements : WorkloadRequirements}
    {preferred : BTreeMap String String} {image : Option String} (different : app.appId ≠ appId)
    (count ordinal : Nat) (cache : ClusterStateCache)
    : cache.Busier appId
        (scheduleFrom app.appId requirements preferred image ordinal count cache).cluster := by
  induction count generalizing ordinal cache with
  | zero => exact .refl cache
  | succ count ih =>
    rw [scheduleFrom]
    split
    · exact .refl cache
    · exact (reserve_busier different).trans (ih _ _)

/-- The footprints of an app are those of its placements. -/
theorem mem_committedFootprints {nodeId : NodeId} {committed : Resources}
    (found : (pass.desired.committedFootprints appId)[nodeId]? = some committed)
    : ∃ placement ∈ pass.desired.placementsOf appId, placement.resources = committed := by
  by_cases present : ∃ placement ∈ pass.desired.placementsOf appId, placement.nodeId = nodeId
  · obtain ⟨placement, listed, _, last⟩ := @get_foldl_insert_of_mem _ _ _ _ _ _
      (fun placement : Placement => placement.nodeId) (fun placement => placement.resources) _
      nodeId present ∅
    rw [ScheduledState.committedFootprints, last] at found
    exact ⟨placement, listed, Option.some.inj found⟩
  · push Not at present
    have absent := @get_foldl_insert_of_absent _ _ _ _ _ _
      (fun placement : Placement => placement.nodeId) (fun placement => placement.resources) _
      nodeId present ∅
    rw [ScheduledState.committedFootprints, absent] at found
    simp at found

/-- An app whose committed placements don't shrink. -/
def Grows (pass : Pass) (app : AppPass) : Prop :=
  ∀ placement ∈ pass.desired.placementsOf app.appId, placement.resources ≤ app.spec.requests

/-- Replicas that are resized to no less take room, by cases on whether each is resized. -/
theorem resizeAll_busier (different : app.appId ≠ appId)
    (grows : ∀ placement ∈ kept, placement.resources ≤ app.spec.requests)
    (cache : ClusterStateCache)
    : cache.Busier appId (resizeAll app.appId app.spec.requests cache kept) := by
  refine ClusterStateCache.Related.foldl SchedulerNodeState.Busier.refl
    SchedulerNodeState.Busier.trans (fun placement listed cache => ?_) cache
  rw [resizeOne]
  split
  · exact ClusterStateCache.Busier.refl cache
  refine ⟨fun id => ?_,
    ((ClusterStateCache.release_alike _ _).trans (ClusterStateCache.reserve_alike _ _)).refusals⟩
  rw [ClusterStateCache.reserve, ClusterStateCache.release, ClusterStateCache.nodes_update,
    ClusterStateCache.nodes_update]
  split
  · cases cache.nodes[id]? with
    | none => exact .none
    | some node =>
      exact .some (SchedulerNodeState.replace_busier different (grows placement listed))
  · exact (ClusterStateCache.Busier.refl cache).nodes id

section

variable (grows : pass.Grows app) (planned : pass.Planned prepared app)
  (different : app.appId ≠ appId)
include grows different

theorem added_busier
    : cache.Busier appId (pass.added cache app replicas).cluster := by
  cases replicas with
  | fixed count => exact scheduleFrom_busier different count 0 cache
  | daemonSet =>
    refine ⟨fun id => ?_, (added_within cache app .daemonSet).refusals⟩
    show Option.Rel _ cache.nodes[id]? (scheduleDaemon _ _ _ _).cluster.nodes[id]?
    rw [nodes_scheduleDaemon]
    have each : Option.Rel (SchedulerNodeState.Busier appId) cache.nodes[id]?
        (cache.nodes[id]?.map (fun node =>
          (creditNode app.appId (pass.desired.committedFootprints app.appId) id node).reserve
            app.appId app.spec.requests)) := by
      cases cache.nodes[id]? with
      | none => exact .none
      | some node =>
        refine .some (SchedulerNodeState.creditNode_busier (fun committed found => ?_) different)
        obtain ⟨placement, listed, rfl⟩ := mem_committedFootprints found
        exact grows placement listed
    split
    · exact each
    · exact (ClusterStateCache.Busier.refl cache).nodes id

include planned

theorem fills_busier (fills : Fills pass cache app turn kept replicas)
    : cache.Busier appId turn := by
  have resized : cache.Busier appId
      (resizeAll app.appId app.spec.requests cache (pass.keptOf cache app)) :=
    resizeAll_busier different (fun placement listed =>
      grows placement ((keptOf_subperm planned).subset listed)) cache
  cases fills with
  | daemon daemonSet => exact resized
  | keep count fixed some => exact resized.trans (countKeptReplicas_busier different _ _)
  | goHome count fixed none homes found =>
    exact (reserveAll_busier different _ cache).trans (countKeptReplicas_busier different _ _)

theorem step_busier (state : PassState)
    : state.cache.Busier appId (pass.step state app).cache := by
  have turn := step_turn pass state app
  generalize pass.step state app = next at turn
  cases turn with
  | fills pending quotas admitted fills =>
    rw [fill_cache]
    exact (fills_busier grows planned different fills).trans (added_busier grows different)
  | _ => exact .refl _

end

/-- The apps whose turns come before an app's own. -/
def earlier (pass : Pass) (cache : ClusterStateCache) (appId : AppId) : List AppPass :=
  (pass.planned (pass.prepare cache)).takeWhile (fun app => app.appId ≠ appId)

/-- Until an app's turn, others that don't shrink only take room. -/
theorem stateAt_busier (quotas : QuotaLedger) (appId : AppId)
    (grows : ∀ app ∈ pass.earlier cache appId, pass.Grows app)
    : (pass.prepare cache).Busier appId (pass.stateAt cache quotas appId).cache := by
  refine @run_related pass _ ClusterStateCache.Busier.refl ClusterStateCache.Busier.trans _
    (pass.begin cache quotas) fun app listed state _ => ?_
  have planned : pass.Planned (pass.prepare cache) app :=
    planned_of_mem ((List.takeWhile_sublist _).subset listed)
  have different := List.mem_takeWhile_imp listed
  exact step_busier (grows app listed) planned (of_decide_eq_true different) state

end Pass

-- Daemon sets

/-- What is allocated on the nodes fits the counters. -/
def ClusterStateCache.Representable (cache : ClusterStateCache) : Prop :=
  ∀ (nodeId : NodeId) (node : SchedulerNodeState), cache.nodes[nodeId]? = some node
    → node.allocated ≤ .largest

theorem ClusterStateCache.Representable.reserveCommittedInstance {cache : ClusterStateCache}
    (representable : cache.Representable) (nodeId : NodeId) (appId : AppId) (ordinal : Nat)
    (request : Resources)
    : (cache.reserveCommittedInstance nodeId appId ordinal request).Representable := by
  intro id after found
  rw [ClusterStateCache.reserveCommittedInstance] at found
  split at found
  · exact representable id after found
  rename_i node known
  rcases get_insert_cases found with ⟨_, rfl⟩ | before
  · exact saturatingAdd_le_largest _ _
  · exact representable id after before

theorem ClusterStateCache.Representable.foldl {Item : Type}
    {step : ClusterStateCache → Item → ClusterStateCache} {items : List Item}
    (steps : ∀ cache item, cache.Representable → (step cache item).Representable)
    {cache : ClusterStateCache} (representable : cache.Representable)
    : (items.foldl step cache).Representable := by
  induction items generalizing cache with
  | nil => exact representable
  | cons item rest ih => exact ih (steps cache item representable)

namespace Pass

variable {pass : Pass} {cache turn : ClusterStateCache} {app : AppPass} {quotas : QuotaLedger}
  {kept : List Placement} {replicas : Replicas}

theorem prepare_representable (representable : cache.Representable)
    : (pass.prepare cache).Representable := by
  have reserved : (reserveCommitments cache pass.desired).Representable :=
    ClusterStateCache.Representable.foldl (fun _ _ representable =>
      ClusterStateCache.Representable.foldl (fun _ _ representable =>
        representable.reserveCommittedInstance _ _ _ _) representable) representable
  intro nodeId node found
  rw [nodes_prepare, Option.map_eq_some_iff] at found
  obtain ⟨before, known, rfl⟩ := found
  have bounded := reserved nodeId before known
  rw [cordonNode]
  split
  · exact bounded
  · exact bounded

/-- No app that comes before another, and none of that one's own placements, shrinks. -/
structure Unshrunk (pass : Pass) (cache : ClusterStateCache) (appId : AppId) (spec : WorkloadSpec)
    : Prop where
  others : ∀ app ∈ pass.earlier cache appId, pass.Grows app
  own : ∀ placement ∈ pass.desired.placementsOf appId, placement.resources = spec.requests

/-- A node a daemon set can use at its turn was eligible before the first turn. -/
theorem candidate_eligible {appId : AppId} {spec : WorkloadSpec} {nodeId : NodeId}
    (grows : ∀ app ∈ pass.earlier cache appId, pass.Grows app)
    (representable : cache.Representable)
    (candidate : nodeId ∈ daemonCandidates (pass.stateAt cache quotas appId).cache appId
      (pass.desired.committedFootprints appId) (.forApp spec pass.dnsRequired))
    : nodeId ∈ pass.eligibleNodes (pass.prepare cache) appId spec := by
  obtain ⟨_, found, passes⟩ := mem_daemonCandidates.mp candidate
  obtain ⟨before, known, busier⟩ := (stateAt_busier quotas appId grows).node found
  refine mem_daemonCandidates.mpr ⟨before, known, ?_⟩
  exact busier.passesFilter (prepare_representable representable nodeId before known) passes

theorem Planned.want_daemon {prepared : ClusterStateCache} (planned : pass.Planned prepared app)
    (daemonSet : app.replicas = .daemonSet)
    : app.want = (pass.eligibleNodes prepared app.appId app.spec).length
        + app.heldDaemons.length := by
  have parts := wants_eq pass prepared app.appId app.spec
  rw [← planned.made, daemonSet] at parts
  have want : app.want = (pass.wants prepared app.appId app.spec).1 :=
    congrArg AppPass.want planned.made
  have held : app.heldDaemons = (pass.wants prepared app.appId app.spec).2 :=
    congrArg AppPass.heldDaemons planned.made
  rw [want, held, parts]

/-- While nothing shrinks before its turn, a daemon set gets at most the copies it wants. -/
theorem length_decided_daemon (unshrunk : pass.Unshrunk cache app.appId app.spec)
    (representable : cache.Representable) (planned : pass.Planned (pass.prepare cache) app)
    (daemonSet : app.replicas = .daemonSet)
    (fills : Fills pass (pass.stateAt cache quotas app.appId).cache app turn kept replicas)
    : (pass.decided turn app kept replicas).length ≤ app.want := by
  cases fills with
  | daemon _ =>
    have same := @resizeAll_same (pass.stateAt cache quotas app.appId).cache app.appId
      app.spec.requests (pass.keptOf (pass.stateAt cache quotas app.appId).cache app)
      fun placement listed => unshrunk.own placement ((keptOf_subperm planned).subset listed)
    rw [same, decided, length_numberPlacements]
    have held : pass.keptOf (pass.stateAt cache quotas app.appId).cache app = app.heldDaemons := by
      rw [keptOf, daemonSet]
    have copies : (pass.added (pass.stateAt cache quotas app.appId).cache app
        .daemonSet).placements.length
        ≤ (pass.eligibleNodes (pass.prepare cache) app.appId app.spec).length := by
      show (List.mapIdx _ _).length ≤ _
      rw [List.length_mapIdx]
      exact (nodup_daemonCandidates.subperm fun _ candidate =>
        candidate_eligible unshrunk.others representable candidate).length_le
    rw [held, planned.want_daemon daemonSet]
    show (resized app.spec.requests app.heldDaemons).length + _ ≤ _
    rw [resized, List.length_map]
    omega
  | keep count fixed some =>
    rw [daemonSet] at fixed
    cases fixed
  | goHome count fixed none homes found =>
    rw [daemonSet] at fixed
    cases fixed

end Pass

end Reliaburger
