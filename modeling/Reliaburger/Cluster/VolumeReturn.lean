import Reliaburger.Cluster.Acceptance

/-! A volume app that was stopped returns to the nodes of its volumes. What outlives the stop is the
nodes in ordinal order, so each replica finds its ordinal again iff there were no gaps.
-/

namespace Reliaburger

open ClusterStateCache

namespace ScoredNode

def cmp : ScoredNode → ScoredNode → Ordering :=
  compareLex (compareLex (compareOn replicas) (fun left right => compareOn score right left))
    (compareOn nodeId)

instance : Std.TransCmp cmp :=
  inferInstanceAs (Std.TransCmp (compareLex
    (compareLex (compareOn replicas) (fun left right => compareOn score right left))
    (compareOn nodeId)))

variable {first second third : ScoredNode}

theorem before_iff : first.before second = true ↔ (cmp first second).isLE = true :=
  Iff.rfl

theorem before_trans (left : first.before second = true) (right : second.before third = true)
    : first.before third = true :=
  before_iff.mpr (Std.TransCmp.isLE_trans (before_iff.mp left) (before_iff.mp right))

theorem before_total (first second : ScoredNode)
    : first.before second = true ∨ second.before first = true := by
  rw [before_iff, before_iff]
  cases order : cmp first second with
  | lt => exact .inl rfl
  | eq => exact .inl rfl
  | gt =>
    rw [Std.OrientedCmp.lt_of_gt order]
    exact .inr rfl

/-- The replicas decide first. -/
theorem replicas_le (before : first.before second = true) : first.replicas ≤ second.replicas := by
  rw [ScoredNode.before] at before
  refine Nat.le_of_not_lt fun more => ?_
  rw [Nat.compare_eq_gt.mpr more] at before
  cases before

end ScoredNode

variable {cluster : ClusterStateCache} {requirements : WorkloadRequirements} {nodeId : NodeId}
  {appId : AppId} {preferred : BTreeMap String String} {image : Option String}

-- The selected node

variable {resources : Resources}

theorem mem_scoreNodes {candidates : List NodeId} {scored : ScoredNode}
    : scored ∈ scoreNodes candidates appId resources preferred cluster image
      ↔ ∃ nodeId ∈ candidates, ∃ node, cluster.nodes[nodeId]? = some node
        ∧ scored
          = ⟨nodeId, node.replicasOf appId, computeScore node resources preferred image⟩ := by
  rw [scoreNodes, List.mem_insertionSort, List.mem_filterMap]
  constructor
  · rintro ⟨nodeId, listed, made⟩
    obtain ⟨node, found, rfl⟩ := Option.map_eq_some_iff.mp made
    exact ⟨nodeId, listed, node, found, rfl⟩
  · rintro ⟨nodeId, listed, node, found, rfl⟩
    exact ⟨nodeId, listed, Option.map_eq_some_iff.mpr ⟨node, found, rfl⟩⟩

/-- The first of the scored nodes comes before every other. -/
theorem scoreNodes_first {candidates : List NodeId}
    {first scored : ScoredNode}
    (head : (scoreNodes candidates appId resources preferred cluster image).head? = some first)
    (listed : scored ∈ scoreNodes candidates appId resources preferred cluster image)
    : first.before scored = true := by
  have total : Std.Total (fun left right : ScoredNode => left.before right = true) :=
    ⟨ScoredNode.before_total⟩
  have trans : IsTrans ScoredNode (fun left right => left.before right = true) :=
    ⟨fun _ _ _ => ScoredNode.before_trans⟩
  have sorted : (scoreNodes candidates appId resources preferred cluster image).Pairwise
      (fun left right => left.before right = true) :=
    List.pairwise_insertionSort _ _
  obtain ⟨_, split⟩ := List.head?_eq_some_iff.mp head
  rw [split] at sorted listed
  rcases List.mem_cons.mp listed with rfl | later
  · exact (ScoredNode.before_total scored scored).elim (·) (·)
  · exact (List.pairwise_cons.mp sorted).1 scored later

/-- The selected node runs at most as many replicas as any other that passes the filter. -/
theorem selectNode_fewest {other : NodeId} {otherNode : SchedulerNodeState}
    (selected : selectNode appId requirements preferred image cluster = some nodeId)
    (found : cluster.nodes[other]? = some otherNode)
    (passes : passesFilter requirements otherNode = true)
    : ∃ node, cluster.nodes[nodeId]? = some node
      ∧ node.replicasOf appId ≤ otherNode.replicasOf appId := by
  obtain ⟨_, head, rfl⟩ := Option.map_eq_some_iff.mp selected
  obtain ⟨_, _, node, foundChosen, rfl⟩ := mem_scoreNodes.mp (List.mem_of_head? head)
  have listed : (⟨other, otherNode.replicasOf appId,
        computeScore otherNode requirements.resources preferred image⟩ : ScoredNode)
      ∈ scoreNodes (filterNodes requirements cluster) appId requirements.resources preferred cluster
        image :=
    mem_scoreNodes.mpr
      ⟨other, mem_filterNodes.mpr ⟨otherNode, found, passes⟩, otherNode, found, rfl⟩
  exact ⟨node, foundChosen, ScoredNode.replicas_le (scoreNodes_first head listed)⟩

-- Idle nodes

/-- A node that can take the app and runs none of it. -/
def Idle (cluster : ClusterStateCache) (appId : AppId) (requirements : WorkloadRequirements)
    (nodeId : NodeId)
    : Prop :=
  ∃ node, cluster.nodes[nodeId]? = some node ∧ passesFilter requirements node = true
    ∧ node.replicasOf appId = 0

theorem Idle.reserve_other {other : NodeId} (different : other ≠ nodeId)
    (idle : Idle cluster appId requirements nodeId)
    : Idle (cluster.reserve other appId resources) appId requirements nodeId := by
  obtain ⟨node, found, rest⟩ := idle
  refine ⟨node, ?_, rest⟩
  rw [reserve, nodes_update, if_neg different]
  exact found

theorem replicasOf_reserve (node : SchedulerNodeState) (appId : AppId) (resources : Resources)
    : (node.reserve appId resources).replicasOf appId = node.replicasOf appId + 1 := by
  show (node.appReplicas.insert appId (node.replicasOf appId + 1))[appId]?.getD 0 = _
  rw [BTreeMap.get_insert_self]
  rfl

/-- While there are as many idle nodes as replicas to place, each goes to a node that runs none. -/
theorem scheduleFrom_idle {count ordinal : Nat} {idle : List NodeId} (nodup : idle.Nodup)
    (each : ∀ nodeId ∈ idle, Idle cluster appId requirements nodeId) (enough : count ≤ idle.length)
    {placement : Placement}
    (listed : placement
      ∈ (scheduleFrom appId requirements preferred image ordinal count cluster).placements)
    : ∃ node, cluster.nodes[placement.nodeId]? = some node ∧ node.replicasOf appId = 0 := by
  induction count generalizing ordinal cluster idle with
  | zero => cases listed
  | succ count ih =>
    rw [scheduleFrom] at listed
    split at listed
    · cases listed
    rename_i nodeId selected
    -- Some node is idle, so the selected one runs nothing either.
    obtain ⟨witness, among⟩ := List.exists_mem_of_length_pos (Nat.lt_of_lt_of_le
      (Nat.succ_pos count) enough)
    obtain ⟨_, foundIdle, passes, none⟩ := each witness among
    obtain ⟨node, found, fewest⟩ := selectNode_fewest selected foundIdle passes
    rw [none] at fewest
    rcases List.mem_cons.mp listed with rfl | later
    · exact ⟨node, found, Nat.le_zero.mp fewest⟩
    have left : count ≤ (idle.erase nodeId).length := by
      rw [List.length_erase]
      split <;> omega
    obtain ⟨after, foundAfter, noneAfter⟩ := ih (nodup.erase nodeId)
      (fun other kept => by
        obtain ⟨different, kept⟩ := (List.Nodup.mem_erase_iff nodup).mp kept
        exact (each other kept).reserve_other different.symm) left later
    rw [reserve, nodes_update] at foundAfter
    split at foundAfter
    · rename_i same
      subst same
      rw [found] at foundAfter
      cases foundAfter
      rw [replicasOf_reserve] at noneAfter
      cases noneAfter
    · exact ⟨after, foundAfter, noneAfter⟩

-- The way home

theorem Resources.le_times {resources : Resources} {count : Nat} (some : 0 < count)
    : resources ≤ resources.times count :=
  ⟨Nat.le_mul_of_pos_right _ some, Nat.le_mul_of_pos_right _ some, Nat.le_mul_of_pos_right _ some⟩

theorem Resources.times_mono {resources : Resources} {fewer count : Nat} (less : fewer ≤ count)
    : resources.times fewer ≤ resources.times count :=
  ⟨Nat.mul_le_mul_left _ less, Nat.mul_le_mul_left _ less, Nat.mul_le_mul_left _ less⟩

/-- The ordinals of placements that are all distinct leave no gap. -/
def Gapless (placements : List Placement) : Prop :=
  ∀ placement ∈ placements, placement.ordinal < placements.length

namespace Pass

variable {pass : Pass} {cache other : ClusterStateCache} {quotas : QuotaLedger} {app : AppPass}
  {appId : AppId} {spec : WorkloadSpec} {placement : Placement}
  {placements homes kept : List Placement}

def countOn (placements : List Placement) (nodeId : NodeId) : Nat :=
  placements.countP (fun placement => placement.nodeId == nodeId)

/-- An app was stopped with these placements and starts again: when its turn comes the quota admits
it, and every node it ran on can take all its replicas there. -/
structure Returns (pass : Pass) (turn : PassState) (prepared : ClusterStateCache) (appId : AppId)
    (spec : WorkloadSpec) (placements : List Placement)
    : Prop where
  app : pass.desired.apps[appId]? = some spec
  /-- The placements and then none were committed last. -/
  stopped
    : ∃ base : ScheduledState,
        let desired := (base.commit ⟨appId, placements⟩).commit ⟨appId, []⟩
        pass.desired.scheduling[appId]? = desired.scheduling[appId]?
        ∧ pass.desired.lastPlacedNodes[appId]? = desired.lastPlacedNodes[appId]?
  admitted : (pass.admitApp turn.quotas (pass.planApp prepared appId spec)).toOption.isSome = true
  present
    : ∀ placement ∈ placements, pass.members.alive.contains placement.nodeId = true
      ∧ pass.members.suspect.contains placement.nodeId = false
      ∧ pass.members.unheard.contains placement.nodeId = false
      ∧ pass.desired.retiredNodes.contains placement.nodeId = false
  takes
    : ∀ placement ∈ placements, ∃ node, turn.cache.nodes[placement.nodeId]? = some node
      ∧ node.matchesLabels spec.requiredLabels = true ∧ pass.canRun node spec = true
      ∧ node.canFit (spec.requests.times (countOn placements placement.nodeId)) = true

/-- A pass places every replica on its node with its ordinal. -/
def Restored (plan : PassState) (appId : AppId) (placements : List Placement) : Prop :=
  ∀ placement ∈ placements, ∃ decision ∈ plan.decisions, decision.appId = appId
    ∧ ∃ holder ∈ decision.placements,
        holder.nodeId = placement.nodeId ∧ holder.ordinal = placement.ordinal

-- Ordinals without gaps

variable {count : Nat} {prepared : ClusterStateCache}

theorem ordinals_subperm_range (distinct : (placements.map (·.ordinal)).Nodup)
    (below : ∀ placement ∈ placements, placement.ordinal < count)
    : (placements.map (·.ordinal)).Subperm (List.range count) := by
  refine distinct.subperm fun ordinal listed => ?_
  obtain ⟨placement, among, rfl⟩ := List.mem_map.mp listed
  exact List.mem_range.mpr (below placement among)

theorem length_le_of_below (distinct : (placements.map (·.ordinal)).Nodup)
    (below : ∀ placement ∈ placements, placement.ordinal < count)
    : placements.length ≤ count := by
  have length := (ordinals_subperm_range distinct below).length_le
  rwa [List.length_map, List.length_range] at length

theorem length_byOrdinal (placements : List Placement)
    : (byOrdinal placements).length = placements.length :=
  (byOrdinal_perm placements).length_eq

/-- Distinct ordinals without gaps are the positions in their order. -/
theorem map_ordinal_of_gapless (distinct : (placements.map (·.ordinal)).Nodup)
    (gapless : Gapless placements)
    : (byOrdinal placements).map (·.ordinal) = List.range placements.length := by
  have sorted : ((byOrdinal placements).map (·.ordinal)).Perm (placements.map (·.ordinal)) :=
    (byOrdinal_perm placements).map _
  have all : (placements.map (·.ordinal)).Perm (List.range placements.length) :=
    (ordinals_subperm_range distinct gapless).perm_of_length_le
      (by rw [List.length_range, List.length_map])
  refine List.Perm.eq_of_pairwise (fun _ _ _ _ => Nat.le_antisymm) ?_ ?_ (sorted.trans all)
  · exact List.pairwise_map.mpr (byOrdinal_sorted placements)
  · exact List.pairwise_lt_range.imp Nat.le_of_lt

-- Going home

/-- The replicas that return to nodes, each with the ordinal of its position. -/
def homesAt (spec : WorkloadSpec) (start : Nat) (nodes : List NodeId) : List Placement :=
  nodes.mapIdx (fun position nodeId => ⟨nodeId, spec.requests, start + position⟩)

theorem findHomes_all {nodes : List NodeId} (start : Nat)
    (checked : ∀ nodeId ∈ nodes, pass.checkHome cache spec nodeId = .home)
    : pass.findHomes cache spec start nodes = .placed (homesAt spec start nodes) := by
  induction nodes generalizing start with
  | nil => rfl
  | cons first rest ih =>
    have later := ih (start + 1) (List.forall_mem_cons.mp checked).2
    rw [findHomes, checked first List.mem_cons_self]
    simp only [later, homesAt, List.mapIdx_cons, Nat.add_zero, HomeOutcome.placed.injEq,
      List.cons.injEq, true_and]
    congr 1
    funext position nodeId
    rw [Nat.add_assoc, Nat.add_comm 1 position]

section

variable {turn : PassState} (returns : pass.Returns turn prepared appId spec placements)
include returns

theorem Returns.checked (listed : placement ∈ placements)
    : pass.checkHome turn.cache spec placement.nodeId = .home := by
  obtain ⟨alive, trusted, heard, active⟩ := returns.present placement listed
  obtain ⟨node, found, labels, runs, room⟩ := returns.takes placement listed
  have one : node.canFit spec.requests = true := by
    refine Resources.fits_iff.mpr (Resources.le_trans ?_ (Resources.fits_iff.mp room))
    exact Resources.le_times (List.countP_pos_iff.mpr ⟨placement, listed, beq_self_eq_true _⟩)
  rw [checkHome, found]
  simp [alive, trusted, heard, active, labels, runs, one]

theorem Returns.placementsOf_nil
    : pass.desired.placementsOf appId = [] := by
  obtain ⟨_, scheduling, _⟩ := returns.stopped
  rw [ScheduledState.placementsOf, scheduling]
  show ((_ : BTreeMap AppId (List Placement)).insert appId [])[appId]?.getD [] = []
  rw [BTreeMap.get_insert_self]
  rfl

theorem Returns.lastNodes (some : placements ≠ [])
    : pass.desired.lastPlacedNodes[appId]? = .some ((byOrdinal placements).map (·.nodeId)) := by
  obtain ⟨base, _, last⟩ := returns.stopped
  rw [last]
  show (if placements.isEmpty then base.lastPlacedNodes
    else base.lastPlacedNodes.insert appId ((byOrdinal placements).map (·.nodeId)))[appId]? = _
  rw [if_neg (by rwa [List.isEmpty_iff]), BTreeMap.get_insert_self]

end

/-- An app that returns finds its replicas' nodes in ordinal order. -/
theorem Returns.homesOf {turn : PassState} {want : Nat}
    (returns : pass.Returns turn prepared appId spec placements)
    (managed : spec.hasManagedVolume = true) (some : placements ≠ [])
    (few : placements.length ≤ want)
    : pass.homesOf turn.cache appId spec want
      = .placed (homesAt spec 0 ((byOrdinal placements).map (·.nodeId))) := by
  rw [Pass.homesOf, returns.lastNodes some]
  simp only [managed, if_true]
  rw [List.take_of_length_le (by rw [List.length_map, length_byOrdinal]; exact few)]
  refine findHomes_all 0 fun nodeId listed => ?_
  obtain ⟨_, among, rfl⟩ := List.mem_map.mp listed
  exact returns.checked (mem_byOrdinal.mp among)

theorem keptOf_nil (none : pass.desired.placementsOf app.appId = [])
    (fixed : app.replicas = .fixed count)
    : pass.keptOf cache app = [] := by
  rw [keptOf_fixed fixed, none, List.filter_nil]
  exact List.take_nil

/-- An app with a managed volume has a fixed size. -/
theorem Planned.fixed_of_managed (planned : pass.Planned prepared app)
    (managed : app.spec.hasManagedVolume = true)
    : app.replicas = .fixed app.want := by
  have fixed : ∃ count, app.replicas = .fixed count := by
    rw [AppPass.replicas]
    split
    · next count _ => exact ⟨count, rfl⟩
    rw [WorkloadSpec.hasManagedVolume] at managed
    cases size : app.spec.replicas with
    | fixed count => exact ⟨count, rfl⟩
    | daemonSet => simp [size] at managed
  obtain ⟨_, fixed⟩ := fixed
  rw [planned.want_fixed fixed, fixed]

/-- Without gaps each replica's home has its ordinal. -/
theorem mem_homesAt (distinct : (placements.map (·.ordinal)).Nodup) (gapless : Gapless placements)
    (listed : placement ∈ placements)
    : (⟨placement.nodeId, spec.requests, placement.ordinal⟩ : Placement)
      ∈ homesAt spec 0 ((byOrdinal placements).map (·.nodeId)) := by
  obtain ⟨position, within, rfl⟩ := List.getElem_of_mem (mem_byOrdinal.mpr listed)
  have ordinals := map_ordinal_of_gapless distinct gapless
  have ordinal : (byOrdinal placements)[position].ordinal = position := by
    have same := congrArg (·[position]?) ordinals
    rw [length_byOrdinal] at within
    simpa [List.getElem?_range, within, length_byOrdinal] using same
  refine List.mem_mapIdx.mpr ⟨position, by rwa [List.length_map], ?_⟩
  rw [List.getElem_map, ordinal, Nat.zero_add]

section

variable (returns : pass.Returns (pass.stateAt cache quotas appId) (pass.prepare cache) appId spec
    placements)
  (managed : spec.hasManagedVolume = true) (distinct : (placements.map (·.ordinal)).Nodup)
  (below : ∀ placement ∈ placements,
    placement.ordinal < (pass.wants (pass.prepare cache) appId spec).1)

include returns

/-- An app that returns has something to place. -/
theorem Returns.pending (wants : 0 < (pass.wants (pass.prepare cache) appId spec).1)
    : (pass.planApp (pass.prepare cache) appId spec).converged = false := by
  obtain ⟨_, scheduling, _⟩ := returns.stopped
  have none : pass.desired.scheduling[appId]? = some [] := by
    rw [scheduling]
    exact BTreeMap.get_insert_self _ _ _
  show pass.isConverged (pass.prepare cache) appId spec = false
  rw [isConverged, none, Option.any_some, List.length_nil,
    beq_false_of_ne (Nat.ne_of_lt wants), Bool.false_and]

include managed distinct below

/-- The turn of an app that returns puts it on its nodes in ordinal order. -/
theorem Returns.fills (some : placements ≠ [])
    {turn : ClusterStateCache} {replicas : Replicas}
    (fills : Fills pass (pass.stateAt cache quotas appId).cache
      (pass.planApp (pass.prepare cache) appId spec) turn kept replicas)
    : kept = homesAt spec 0 ((byOrdinal placements).map (·.nodeId))
      ∧ turn = countKeptReplicas
          (reserveAll (pass.stateAt cache quotas appId).cache appId spec.requests kept) appId kept
      ∧ replicas = .fixed ((pass.wants (pass.prepare cache) appId spec).1 - kept.length) := by
  have fixed :=
    (planned_of_mem (@mem_planned _ (pass.prepare cache) _ _ returns.app)).fixed_of_managed managed
  have empty : pass.keptOf (pass.stateAt cache quotas appId).cache
      (pass.planApp (pass.prepare cache) appId spec) = [] :=
    keptOf_nil returns.placementsOf_nil fixed
  have homes := returns.homesOf managed some (length_le_of_below distinct below)
  cases fills with
  | daemon daemonSet =>
    rw [fixed] at daemonSet
    cases daemonSet
  | keep count _ nonempty => exact absurd empty nonempty
  | goHome count _ none homes' found =>
    obtain rfl := HomeOutcome.placed.inj (homes.symm.trans found)
    exact ⟨rfl, rfl, rfl⟩

/-- The turn of an app that returns fills it up. -/
theorem Returns.turn (some : placements ≠ [])
    : ∃ ledger turn kept replicas,
        Fills pass (pass.stateAt cache quotas appId).cache
          (pass.planApp (pass.prepare cache) appId spec) turn kept replicas
        ∧ pass.step (pass.stateAt cache quotas appId) (pass.planApp (pass.prepare cache) appId spec)
          = pass.fill { pass.stateAt cache quotas appId with quotas := ledger, cache := turn }
              (pass.planApp (pass.prepare cache) appId spec) kept replicas := by
  have turn := step_turn pass (pass.stateAt cache quotas appId)
    (pass.planApp (pass.prepare cache) appId spec)
  obtain ⟨first, listed⟩ := List.exists_mem_of_ne_nil _ some
  have pending := returns.pending (Nat.lt_of_le_of_lt (Nat.zero_le _) (below first listed))
  generalize pass.step (pass.stateAt cache quotas appId)
    (pass.planApp (pass.prepare cache) appId spec) = next at turn
  cases turn with
  | converged done =>
    rw [pending] at done
    cases done
  | blocked _ refused rejected =>
    have admitted := returns.admitted
    rw [rejected] at admitted
    cases admitted
  | waits _ ledger admitted count fixed none node reason found =>
    have homes := returns.homesOf managed some (length_le_of_below distinct below)
    cases homes.symm.trans found
  | fills _ ledger admitted fills => exact ⟨ledger, _, _, _, fills, rfl⟩

/-- Without gaps, every replica returns to its node with its ordinal. -/
theorem Returns.restored (gapless : Gapless placements)
    : Restored (pass.finish cache quotas) appId
        placements := by
  intro placement listed
  have some : placements ≠ [] := List.ne_nil_of_mem listed
  obtain ⟨before, after, turns⟩ := List.append_of_mem
    (@mem_planned pass (pass.prepare cache) appId spec returns.app)
  obtain ⟨ledger, turn, kept, replicas, fills, stepped⟩ :=
    returns.turn managed distinct below some
  have isHome : (⟨placement.nodeId, spec.requests, placement.ordinal⟩ : Placement) ∈ kept := by
    rw [(returns.fills managed distinct below some fills).1]
    exact mem_homesAt distinct gapless listed
  have holds : (⟨placement.nodeId, spec.requests, placement.ordinal⟩ : Placement)
      ∈ pass.decided turn (pass.planApp (pass.prepare cache) appId spec) kept replicas := by
    refine kept_subset_numberPlacements _ _ _ _ ?_
    rw [keptAndStranded]
    split
    · exact List.mem_append_left _ isHome
    · exact isHome
  -- The decision is news, as nothing was committed, and later turns keep it.
  have news : samePlacements (pass.desired.placementsOf appId)
      (pass.decided turn (pass.planApp (pass.prepare cache) appId spec) kept replicas) = false := by
    rw [returns.placementsOf_nil, samePlacements, ← Bool.not_eq_true, beq_iff_eq]
    intro same
    rw [← same] at holds
    exact List.not_mem_nil (mem_byOrdinal.mp holds)
  have decided := @fill_decisions pass
    { pass.stateAt cache quotas appId with quotas := ledger, cache := turn }
    (pass.planApp (pass.prepare cache) appId spec) kept replicas
  rw [show (pass.planApp (pass.prepare cache) appId spec).appId = appId from rfl, news,
    if_neg Bool.false_ne_true, ← stepped] at decided
  obtain ⟨_, final, _⟩ := @run_decisions pass after
    (pass.step (pass.stateAt cache quotas appId) (pass.planApp (pass.prepare cache) appId spec))
  have same : pass.stateAt cache quotas appId = before.foldl pass.step (pass.begin cache quotas) :=
    stateAt_eq turns
  rw [finish, turns, List.foldl_append, List.foldl_cons, ← same]
  refine ⟨⟨appId, _⟩, ?_, rfl, _, holds, rfl, rfl⟩
  rw [final, decided]
  exact List.mem_append_left _ (List.mem_append_right _ (List.mem_singleton.mpr rfl))

end

end Pass

end Reliaburger
