import Reliaburger.Cluster.VolumeReturn

/-! With a gap in its ordinals, a volume app comes back in the wrong order on a cluster with idle
nodes: the replica with the highest ordinal finds that of its position, and its own goes to a node
that never ran the app.
-/

namespace Reliaburger

open BTreeMap ClusterStateCache Pass Resources WorkloadRequirements

-- A node for any app

/-- An empty node that can run whatever a spec asks for. -/
def hostFor (spec : WorkloadSpec) (allocatable : Resources) : SchedulerNodeState where
  allocatable := allocatable
  allocated := .zero
  labels := spec.requiredLabels
  ready := true
  capabilities :=
    { egress := ⟨true, true, true, true, true⟩
      dns := ⟨true, true, true, true, true⟩
      process := ⟨true, (WorkloadRequirements.forApp spec false).hostBinaries⟩
      containers := true
      secretProviders := (WorkloadRequirements.forApp spec false).secretProviders
      runtimeKnobs :=
        { capabilities := (spec.runtime.getD {}).capabilities
          sysctls := (spec.runtime.getD {}).sysctls.map .exactly
          devices := (spec.runtime.getD {}).devices }
      sharedNetwork := true }
  appReplicas := ∅
  uptimeSecs := 0
  cachedImages := ∅

variable {spec : WorkloadSpec} {allocatable : Resources} {appId : AppId}

theorem hostFor_matchesLabels
    : (hostFor spec allocatable).matchesLabels spec.requiredLabels = true := by
  rw [SchedulerNodeState.matchesLabels, List.all_eq_true]
  rintro ⟨_, _⟩ listed
  rw [mem_toList] at listed
  exact beq_iff_eq.mpr listed

theorem hostFor_admits
    : (hostFor spec allocatable).capabilities.runtimeKnobs.admits (spec.runtime.getD {})
      = true := by
  rw [RuntimeAllowlist.admits, Bool.and_eq_true, Bool.and_eq_true, List.all_eq_true,
    List.all_eq_true, List.all_eq_true]
  refine ⟨⟨fun name listed => List.contains_iff_mem.mpr listed, fun name listed => ?_⟩,
    fun name listed => List.contains_iff_mem.mpr listed⟩
  rw [List.any_eq_true]
  exact ⟨.exactly name, List.mem_map_of_mem listed, beq_self_eq_true name⟩

theorem hostFor_canRun
    : nodeCanRun (hostFor spec allocatable) (.forApp spec false) = true := by
  have binaries : (forApp spec false).hostBinaries.all
      (hostFor spec allocatable).capabilities.process.runs = true :=
    List.all_eq_true.mpr fun name listed => by
      rw [ProcessWorkloadCapability.runs, Bool.and_eq_true]
      exact ⟨rfl, List.contains_iff_mem.mpr listed⟩
  have providers : (forApp spec false).secretProviders.all
      (hostFor spec allocatable).capabilities.secretProviders.contains = true :=
    List.all_eq_true.mpr fun name listed => List.contains_iff_mem.mpr listed
  have knobs := @hostFor_admits spec allocatable
  rw [nodeCanRun, binaries, providers,
    show (hostFor spec allocatable).capabilities.runtimeKnobs.admits
      (forApp spec false).runtimeKnobs = true from knobs]
  simp [hostFor, runsItsKind, EgressEnforcementCapability.canEnforceAllowlist, forApp]

-- Replica counts

namespace Pass

variable {pass : Pass} {cache : ClusterStateCache} {nodeId : NodeId}
  {placements kept : List Placement}

theorem replicasOf_setReplicas (node : SchedulerNodeState) (appId : AppId) (count : Nat)
    : (node.setReplicas appId count).replicasOf appId = count := by
  rw [SchedulerNodeState.setReplicas, SchedulerNodeState.replicasOf]
  dsimp only
  split
  · rename_i zero
    rw [get_erase_self, zero]
    rfl
  · rw [get_insert_self]
    rfl

theorem nodes_countKeptReplicas (appId : AppId) (kept : List Placement) (nodeId : NodeId)
    : (countKeptReplicas cache appId kept).nodes[nodeId]?
      = cache.nodes[nodeId]?.map (fun node => node.setReplicas appId (countOn kept nodeId)) := by
  have acts (cache : ClusterStateCache) (first second : NodeId)
      : (cache.setReplicas first appId (countOn kept first)).nodes[second]?
        = if first = second then
            cache.nodes[second]?.map (fun node => node.setReplicas appId (countOn kept second))
          else cache.nodes[second]? := by
    rw [setReplicas, nodes_update]
    split
    · rename_i same
      subst same
      rfl
    · rfl
  exact nodes_foldl_keys acts cache nodeId

theorem nodes_reserveAll_other {resources : Resources} {homes : List Placement}
    (absent : nodeId ∉ homes.map (·.nodeId)) (cache : ClusterStateCache)
    : (reserveAll cache appId resources homes).nodes[nodeId]? = cache.nodes[nodeId]? := by
  induction homes generalizing cache with
  | nil => rfl
  | cons first rest ih =>
    rw [List.map_cons, List.mem_cons, not_or] at absent
    show (reserveAll (cache.reserve first.nodeId appId resources) appId resources
      rest).nodes[nodeId]? = _
    rw [ih absent.2, reserve, nodes_update, if_neg fun same => absent.1 same.symm]

theorem map_nodeId_homesAt (start : Nat) (nodes : List NodeId)
    : (homesAt spec start nodes).map (·.nodeId) = nodes := by
  refine List.ext_getElem ?_ fun position _ _ => ?_
  · rw [List.length_map, homesAt, List.length_mapIdx]
  · simp only [homesAt, List.getElem_map, List.getElem_mapIdx]

/-- A pass whose committed apps have no placements starts from what the nodes reported. -/
theorem reserveCommitments_none {desired : ScheduledState}
    (none : ∀ appId : AppId, desired.placementsOf appId = [])
    : reserveCommitments cache desired = cache := by
  have entries : ∀ entry ∈ desired.scheduling.toList, entry.2 = [] := by
    rintro ⟨appId, _⟩ listed
    rw [mem_toList] at listed
    have empty := none appId
    rwa [ScheduledState.placementsOf, listed] at empty
  rw [reserveCommitments]
  generalize desired.scheduling.toList = rows at entries
  induction rows with
  | nil => rfl
  | cons first rest ih =>
    rw [List.foldl_cons, entries first List.mem_cons_self, List.foldl_nil]
    exact ih (List.forall_mem_cons.mp entries).2

/-- Then no node changes before the first turn, if none is retired. -/
theorem nodes_prepare_none (none : ∀ appId : AppId, pass.desired.placementsOf appId = [])
    (active : pass.desired.retiredNodes.contains nodeId = false)
    : (pass.prepare cache).nodes[nodeId]? = cache.nodes[nodeId]? := by
  have same : pass.cordonNode nodeId = id := by
    funext node
    rw [cordonNode, if_neg (by rw [active]; exact Bool.false_ne_true)]
    rfl
  rw [nodes_prepare, reserveCommitments_none none, same, Option.map_id_fun]
  rfl

-- What a return places beside its homes

/-- A node stays idle when an app goes home elsewhere. -/
theorem idle_after_homes {requirements : WorkloadRequirements} (resources : Resources)
    (absent : nodeId ∉ kept.map (·.nodeId)) (idle : Idle cache appId requirements nodeId)
    : Idle (countKeptReplicas (reserveAll cache appId resources kept) appId kept) appId requirements
        nodeId := by
  obtain ⟨node, found, passes, _⟩ := idle
  refine ⟨node.setReplicas appId (countOn kept nodeId), ?_, passes, ?_⟩
  · rw [nodes_countKeptReplicas, nodes_reserveAll_other absent, found]
    rfl
  · rw [replicasOf_setReplicas, countOn, List.countP_eq_zero]
    intro placement listed same
    exact absent (List.mem_map.mpr ⟨placement, listed, beq_iff_eq.mp same⟩)

/-- With enough idle nodes, an ordinal beyond the homes is never on a node of the homes. -/
theorem Returns.fresh_elsewhere {quotas : QuotaLedger} {turn : ClusterStateCache}
    {replicas : Replicas} {spares : List NodeId} {holder : Placement}
    (returns : pass.Returns (pass.stateAt cache quotas appId) (pass.prepare cache) appId spec
      placements)
    (managed : spec.hasManagedVolume = true) (distinct : (placements.map (·.ordinal)).Nodup)
    (below : ∀ placement ∈ placements,
      placement.ordinal < (pass.wants (pass.prepare cache) appId spec).1)
    (some : placements ≠ [])
    (fills : Fills pass (pass.stateAt cache quotas appId).cache
      (pass.planApp (pass.prepare cache) appId spec) turn kept replicas)
    (apart : spares.Nodup) (enough : (pass.wants (pass.prepare cache) appId spec).1 ≤ spares.length)
    (unused : ∀ spare ∈ spares, spare ∉ placements.map (·.nodeId))
    (idle : ∀ spare ∈ spares, Idle (pass.stateAt cache quotas appId).cache appId
      (.forApp spec pass.dnsRequired) spare)
    (held : holder
      ∈ pass.decided turn (pass.planApp (pass.prepare cache) appId spec) kept replicas)
    (high : placements.length ≤ holder.ordinal)
    : holder.nodeId ∉ placements.map (·.nodeId) := by
  obtain ⟨isHomes, rfl, rfl⟩ := returns.fills managed distinct below some fills
  have homeNodes (nodeId : NodeId)
      : nodeId ∈ kept.map (·.nodeId) ↔ nodeId ∈ placements.map (·.nodeId) := by
    rw [isHomes, map_nodeId_homesAt]
    exact ((byOrdinal_perm placements).map _).mem_iff
  rcases numberPlacements_cases held with kept | ⟨_, source, among, node, _⟩
  · rcases mem_keptAndStranded kept with home | ⟨committed, _⟩
    · -- The homes' ordinals are their positions.
      rw [isHomes] at home
      obtain ⟨_, within, rfl⟩ := List.mem_mapIdx.mp home
      rw [List.length_map, length_byOrdinal] at within
      simp only [Nat.zero_add] at high
      omega
    · have committed : holder ∈ pass.desired.placementsOf appId := committed
      rw [returns.placementsOf_nil] at committed
      cases committed
  · intro onHome
    obtain ⟨_, found, none⟩ := scheduleFrom_idle apart
      (fun spare listed => idle_after_homes spec.requests
        (fun home => unused spare listed ((homeNodes spare).mp home)) (idle spare listed))
      (Nat.le_trans (Nat.sub_le _ _) enough) among
    rw [nodes_countKeptReplicas, Option.map_eq_some_iff] at found
    obtain ⟨_, _, rfl⟩ := found
    rw [replicasOf_setReplicas, countOn, List.countP_eq_zero] at none
    rw [node] at onHome
    obtain ⟨home, listed, same⟩ := List.mem_map.mp ((homeNodes source.nodeId).mpr onHome)
    exact none home listed (beq_iff_eq.mpr same)

-- A restart with spare nodes

section

variable (appId : AppId) (spec : WorkloadSpec) (count : Nat) (placements : List Placement)
  (spares : List NodeId)

/-- The app was stopped with the placements and starts again with `count` replicas. -/
def restarted : ScheduledState :=
  (ScheduledState.commit
    { apps := (∅ : BTreeMap AppId WorkloadSpec).insert appId spec
      autoscaleOverrides := [(appId.text, count)] }
    ⟨appId, placements⟩).commit ⟨appId, []⟩

/-- The nodes of the placements and the spare ones, each with room for all the placements. -/
def sparedCluster : ClusterStateCache where
  nodes := (placements.map (·.nodeId) ++ spares).foldl
    (fun nodes nodeId => nodes.insert nodeId
      (hostFor spec (spec.requests.times placements.length))) ∅

def restart : Pass :=
  ⟨restarted appId spec count placements, aliveMembers (placements.map (·.nodeId) ++ spares), false⟩

variable {appId spec count placements spares}

theorem sparedCluster_nodes (listed : nodeId ∈ placements.map (·.nodeId) ++ spares)
    : (sparedCluster spec placements spares).nodes[nodeId]?
      = some (hostFor spec (spec.requests.times placements.length)) := by
  obtain ⟨_, _, _, found⟩ := @get_foldl_insert_of_mem _ _ _ _ _ _ id
    (fun _ => hostFor spec (spec.requests.times placements.length)) _ nodeId
    ⟨nodeId, listed, rfl⟩ ∅
  exact found

theorem restarted_none (other : AppId)
    : (restarted appId spec count placements).placementsOf other = [] := by
  have known : (restarted appId spec count placements).scheduling
      = ((∅ : BTreeMap AppId (List Placement)).insert appId placements).insert appId [] := rfl
  rw [ScheduledState.placementsOf, known, get_insert]
  split
  · rfl
  rename_i different
  rw [get_insert_ne _ _ different]
  simp

theorem restart_prepare (listed : nodeId ∈ placements.map (·.nodeId) ++ spares)
    : ((restart appId spec count placements spares).prepare
        (sparedCluster spec placements spares)).nodes[nodeId]?
      = some (hostFor spec (spec.requests.times placements.length)) := by
  rw [nodes_prepare_none restarted_none (by rfl)]
  exact sparedCluster_nodes listed

theorem restart_wants (prepared : ClusterStateCache)
    : ((restart appId spec count placements spares).wants prepared appId spec).1 = count := by
  have known : (restart appId spec count placements spares).desired.overrideReplicas appId
      = some count := by
    show (if (∅ : BTreeSet AppId).contains appId then some 0
      else ([(appId.text, count)].find? (fun entry => entry.1 == appId.text)).map Prod.snd) = _
    rw [List.find?_cons, beq_self_eq_true]
    simp
  rw [wants, known]

/-- The restarted app is the only one of the pass. -/
theorem restart_planned (prepared : ClusterStateCache)
    : (restart appId spec count placements spares).planned prepared
      = [(restart appId spec count placements spares).planApp prepared appId spec] := by
  have apps : (restart appId spec count placements spares).desired.apps.toList
      = [(appId, spec)] := by
    have perm := toList_insert_perm (∅ : BTreeMap AppId WorkloadSpec) appId spec
    rw [Std.ExtTreeMap.erase_empty] at perm
    exact List.perm_singleton.mp perm
  rw [planned, entries, apps]
  rfl

theorem restart_stateAt
    : (restart appId spec count placements spares).stateAt (sparedCluster spec placements spares)
        noQuotas appId
      = (restart appId spec count placements spares).begin (sparedCluster spec placements spares)
        noQuotas := by
  rw [stateAt, restart_planned, List.takeWhile_cons]
  simp [planApp]

/-- The restarted app meets everything a return asks for. -/
theorem restart_returns
    : (restart appId spec count placements spares).Returns
        ((restart appId spec count placements spares).stateAt
          (sparedCluster spec placements spares) noQuotas appId)
        ((restart appId spec count placements spares).prepare
          (sparedCluster spec placements spares)) appId spec placements where
  app := get_insert_self _ _ _
  stopped := ⟨_, rfl, rfl⟩
  admitted := by
    rw [restart_stateAt]
    rfl
  present := by
    intro placement listed
    refine ⟨?_, rfl, rfl, rfl⟩
    refine Std.ExtTreeSet.mem_iff_contains.mp (BTreeSet.mem_ofItems.mpr ?_)
    exact List.mem_append_left _ (List.mem_map_of_mem listed)
  takes := by
    intro placement listed
    rw [restart_stateAt]
    refine ⟨_, restart_prepare (List.mem_append_left _ (List.mem_map_of_mem listed)),
      hostFor_matchesLabels, hostFor_canRun, fits_iff.mpr ?_⟩
    exact times_mono List.countP_le_length

/-- A gap puts the highest ordinal on a spare node. -/
theorem restart_not_restored (managed : spec.hasManagedVolume = true)
    (distinct : (placements.map (·.ordinal)).Nodup)
    (below : ∀ placement ∈ placements, placement.ordinal < count)
    (apart : spares.Nodup) (enough : count ≤ spares.length)
    (unused : ∀ spare ∈ spares, spare ∉ placements.map (·.nodeId))
    (gap : ¬Gapless placements)
    : ¬Restored (planPass (sparedCluster spec placements spares)
        (restarted appId spec count placements)
        (aliveMembers (placements.map (·.nodeId) ++ spares)) noQuotas false) appId placements := by
  obtain ⟨placement, listed, high⟩
      : ∃ placement ∈ placements, placements.length ≤ placement.ordinal := by
    simpa [Gapless] using gap
  intro restored
  obtain ⟨_, made, _, _, held, node, ordinal⟩ := restored placement listed
  have some : placements ≠ [] := List.ne_nil_of_mem listed
  rcases run_decision (step_filledAt (restart appId spec count placements spares)) made with
    none | ⟨before, app, _, turns, _, turn, kept, replicas, filled⟩
  · cases none
  -- The app's turn is the only one.
  have only := (restart_planned _).symm.trans turns
  obtain ⟨rfl, rfl⟩ : before = [] ∧ app = (restart appId spec count placements spares).planApp
      _ appId spec := by
    cases before with
    | nil => exact ⟨rfl, (List.cons.inj only).1.symm⟩
    | cons first rest => simp at only
  have fills : Fills (restart appId spec count placements spares)
      ((restart appId spec count placements spares).stateAt
        (sparedCluster spec placements spares) noQuotas appId).cache
      ((restart appId spec count placements spares).planApp
        ((restart appId spec count placements spares).prepare
          (sparedCluster spec placements spares)) appId spec) turn kept replicas := by
    rw [restart_stateAt]
    exact filled.fills
  rw [filled.made] at held
  refine restart_returns.fresh_elsewhere managed distinct ?_ some fills apart ?_ unused ?_ held
    (ordinal ▸ high) (node ▸ List.mem_map_of_mem listed)
  · rw [restart_wants]
    exact below
  · rw [restart_wants]
    exact enough
  · intro spare among
    rw [restart_stateAt]
    refine ⟨_, restart_prepare (List.mem_append_right _ among), passesFilter_iff.mpr
      ⟨hostFor_canRun, hostFor_matchesLabels, fits_iff.mpr ?_⟩, ?_⟩
    · exact le_times (List.length_pos_iff.mpr some)
    · simp [hostFor, SchedulerNodeState.replicasOf]

end

/-- There are always more names. -/
theorem exists_spares (used : List NodeId) (count : Nat)
    : ∃ spares : List NodeId, spares.Nodup ∧ spares.length = count
        ∧ ∀ spare ∈ spares, spare ∉ used := by
  have names : Infinite NodeId := by
    refine Infinite.of_injective (fun count : Nat => String.ofList (List.replicate count 'n')) ?_
    intro first second same
    have length := congrArg (fun name => name.toList.length) same
    simpa using length
  have unused : {name : NodeId | name ∈ used}ᶜ.Infinite :=
    Set.Finite.infinite_compl (List.finite_toSet used)
  obtain ⟨chosen, within, card⟩ := unused.exists_subset_card_eq count
  refine ⟨chosen.toList, chosen.nodup_toList, ?_, fun spare listed => ?_⟩
  · rw [Finset.length_toList, card]
  · exact within (Finset.mem_toList.mp listed)

end Pass

/-- A stopped volume app whose placements have distinct ordinals below the wanted count comes back
exactly as it was, on whatever cluster can take it back, iff the ordinals have no gaps. -/
theorem volume_app_returns_iff_gapless (appId : AppId) (spec : WorkloadSpec) (count : Nat)
    (placements : List Placement) (managed : spec.hasManagedVolume = true)
    (distinct : (placements.map (·.ordinal)).Nodup)
    (below : ∀ placement ∈ placements, placement.ordinal < count)
    : (∀ (cache : ClusterStateCache) (desired : ScheduledState) (members : PassMembers)
          (quotas : QuotaLedger) (dnsRequired : Bool),
          let pass : Pass := ⟨desired, members, dnsRequired⟩
          (pass.wants (pass.prepare cache) appId spec).1 = count
          → pass.Returns (pass.stateAt cache quotas appId) (pass.prepare cache) appId spec
            placements
          → Pass.Restored (planPass cache desired members quotas dnsRequired) appId placements)
      ↔ Gapless placements := by
  constructor
  · intro always
    by_contra gap
    obtain ⟨spares, apart, length, unused⟩ :=
      exists_spares (placements.map (·.nodeId)) count
    refine @restart_not_restored appId spec count placements spares managed distinct below apart
      (Nat.le_of_eq length.symm) unused gap ?_
    exact always _ _ _ _ _ (restart_wants _) restart_returns
  · intro gapless cache desired members quotas dnsRequired pass wants returns
    refine returns.restored managed distinct ?_ gapless
    rw [wants]
    exact below

-- Restarts of one app

def volumeApp (count : Nat) : WorkloadSpec where
  replicas := .fixed count
  cpu := some ⟨1, 1⟩
  volumes := [none]

/-- An app that ran its second replica only comes back with that node as its first replica, and its
second on the other node. -/
theorem second_replica_returns_first
    : ¬∀ (appId : AppId) (spec : WorkloadSpec) (count : Nat) (placements : List Placement),
        spec.hasManagedVolume = true → (placements.map (·.ordinal)).Nodup
        → (∀ placement ∈ placements, placement.ordinal < count)
        → ∀ (cache : ClusterStateCache) (desired : ScheduledState) (members : PassMembers)
            (quotas : QuotaLedger) (dnsRequired : Bool),
            let pass : Pass := ⟨desired, members, dnsRequired⟩
            (pass.wants (pass.prepare cache) appId spec).1 = count
            → pass.Returns (pass.stateAt cache quotas appId) (pass.prepare cache) appId spec
                placements
            → Pass.Restored (planPass cache desired members quotas dnsRequired) appId
                placements := by
  intro always
  have restored := always webApp (volumeApp 2) 2 [⟨"n", ⟨1, 0, 0⟩, 1⟩] rfl (by decide) (by decide)
    (sparedCluster (volumeApp 2) [⟨"n", ⟨1, 0, 0⟩, 1⟩] ["m"])
    (restarted webApp (volumeApp 2) 2 [⟨"n", ⟨1, 0, 0⟩, 1⟩]) (aliveMembers ["n", "m"]) noQuotas
    false (restart_wants _) restart_returns
  rw [Pass.Restored] at restored
  exact absurd restored (by decide +kernel)

/-- Two replicas without a gap come back as they were. -/
theorem both_replicas_return
    : Pass.Restored
        (planPass
          (Pass.sparedCluster (volumeApp 2) [⟨"n", ⟨1, 0, 0⟩, 1⟩, ⟨"m", ⟨1, 0, 0⟩, 0⟩] [])
          (Pass.restarted webApp (volumeApp 2) 2 [⟨"n", ⟨1, 0, 0⟩, 1⟩, ⟨"m", ⟨1, 0, 0⟩, 0⟩])
          (aliveMembers ["n", "m"]) noQuotas false)
        webApp [⟨"n", ⟨1, 0, 0⟩, 1⟩, ⟨"m", ⟨1, 0, 0⟩, 0⟩] :=
  (volume_app_returns_iff_gapless webApp (volumeApp 2) 2 _ rfl (by decide) (by decide)).mpr
    (by unfold Gapless; decide) _ _ _ _ _ (restart_wants _) restart_returns

end Reliaburger
