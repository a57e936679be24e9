import Reliaburger.Cluster.PlanPass

/-! What an app keeps at its turn, what it returns to, and what is placed beside it.
-/

namespace Reliaburger

open ClusterStateCache ClusterStateCache.Alike SchedulerNodeState.Alike

namespace Pass

variable {placement : Placement} {previous kept added : List Placement} {taken : List Nat}

theorem byOrdinal_perm (placements : List Placement) : (byOrdinal placements).Perm placements :=
  List.perm_insertionSort _ _

@[simp] theorem mem_byOrdinal {placements : List Placement}
    : placement ∈ byOrdinal placements ↔ placement ∈ placements :=
  (byOrdinal_perm placements).mem_iff

theorem byOrdinal_sorted (placements : List Placement)
    : (byOrdinal placements).Pairwise (fun left right => left.ordinal ≤ right.ordinal) := by
  have total : Std.Total (fun left right : Placement => left.ordinal ≤ right.ordinal) :=
    ⟨fun left right => Nat.le_total left.ordinal right.ordinal⟩
  have trans : IsTrans Placement (fun left right => left.ordinal ≤ right.ordinal) :=
    ⟨fun _ _ _ => Nat.le_trans⟩
  exact List.pairwise_insertionSort _ placements

-- Free ordinals

theorem not_taken_of_mem_freeOrdinals {count ordinal : Nat}
    (free : ordinal ∈ freeOrdinals taken count)
    : ordinal ∉ taken := by
  have passes := (List.mem_filter.mp (List.mem_of_mem_take free)).2
  rw [List.contains_eq_mem, Bool.not_eq_true', decide_eq_false_iff_not] at passes
  exact passes

/-- There are always enough: the taken ones can't cover that many numbers. -/
theorem length_freeOrdinals (taken : List Nat) (count : Nat)
    : (freeOrdinals taken count).length = count := by
  have covered
      : ((List.range (taken.length + count)).filter (fun ordinal => taken.contains ordinal)).length
        ≤ taken.length := by
    refine ((List.nodup_range.filter _).subperm fun ordinal listed => ?_).length_le
    exact List.contains_iff_mem.mp (List.mem_filter.mp listed).2
  have parts := List.length_eq_length_filter_add (l := List.range (taken.length + count))
    (fun ordinal => taken.contains ordinal)
  rw [List.length_range] at parts
  rw [freeOrdinals, List.length_take]
  omega

-- Numbering what is added

/-- What renumbering makes of the added placements: each is numbered anew with an ordinal that is
not taken, or left to number. -/
structure Renumbered (taken : List Nat) (added numbered unnumbered : List Placement) : Prop where
  length : numbered.length + unnumbered.length = added.length
  nodup : (numbered.map (·.ordinal)).Nodup
  free : ∀ placement ∈ numbered, placement.ordinal ∉ taken
  numbered
    : ∀ placement ∈ numbered, ∃ source ∈ added,
        placement.nodeId = source.nodeId ∧ placement.resources = source.resources
  unnumbered : ∀ placement ∈ unnumbered, placement ∈ added

theorem renumbered (previous : List Placement) (taken : List Nat) (added : List Placement)
    : Renumbered taken added (renumber previous taken added).1
        (renumber previous taken added).2 := by
  induction added generalizing taken with
  | nil => exact ⟨rfl, List.nodup_nil, by simp [renumber], by simp [renumber], by simp [renumber]⟩
  | cons first rest ih =>
    rw [renumber]
    split
    · rename_i held found
      have later := ih (held.ordinal :: taken)
      have passes := (List.find?_eq_some_iff_append.mp found).1
      rw [Bool.and_eq_true, Bool.not_eq_true', List.contains_eq_mem,
        decide_eq_false_iff_not] at passes
      refine ⟨?_, ?_, ?_, ?_, ?_⟩
      · have length := later.length
        simp only [List.length_cons]
        omega
      · refine List.nodup_cons.mpr ⟨fun again => ?_, later.nodup⟩
        obtain ⟨other, listed, same⟩ := List.mem_map.mp again
        exact later.free other listed (same ▸ List.mem_cons_self)
      · intro placement listed
        rcases List.mem_cons.mp listed with rfl | listed
        · exact passes.2
        · exact fun is => later.free placement listed (List.mem_cons_of_mem _ is)
      · intro placement listed
        rcases List.mem_cons.mp listed with rfl | listed
        · exact ⟨first, List.mem_cons_self, rfl, rfl⟩
        · obtain ⟨source, among, same⟩ := later.numbered placement listed
          exact ⟨source, List.mem_cons_of_mem _ among, same⟩
      · exact fun placement listed => List.mem_cons_of_mem _ (later.unnumbered placement listed)
    · have later := ih taken
      refine ⟨?_, later.nodup, later.free, ?_, ?_⟩
      · have length := later.length
        simp only [List.length_cons]
        omega
      · intro placement listed
        obtain ⟨source, among, same⟩ := later.numbered placement listed
        exact ⟨source, List.mem_cons_of_mem _ among, same⟩
      · intro placement listed
        rcases List.mem_cons.mp listed with rfl | listed
        · exact List.mem_cons_self
        · exact List.mem_cons_of_mem _ (later.unnumbered placement listed)

theorem map_ordinal_numberRest (taken : List Nat) (unnumbered : List Placement)
    : (numberRest taken unnumbered).map (·.ordinal) = freeOrdinals taken unnumbered.length := by
  rw [numberRest, List.map_zipWith, ← List.map_uncurry_zip_eq_zipWith]
  exact List.map_snd_zip (Nat.le_of_eq (length_freeOrdinals taken _))

theorem mem_numberRest {unnumbered : List Placement}
    (listed : placement ∈ numberRest taken unnumbered)
    : ∃ source ∈ unnumbered,
        placement.nodeId = source.nodeId ∧ placement.resources = source.resources := by
  rw [numberRest, ← List.map_uncurry_zip_eq_zipWith] at listed
  obtain ⟨⟨source, _⟩, zipped, rfl⟩ := List.mem_map.mp listed
  exact ⟨source, (List.of_mem_zip zipped).1, rfl, rfl⟩

section

variable (previous kept added : List Placement)

theorem numberPlacements_perm
    : (numberPlacements previous kept added).Perm
        (kept ++ (renumber previous (kept.map (·.ordinal)) added).1
          ++ numberRest
              ((kept ++ (renumber previous (kept.map (·.ordinal)) added).1).map (·.ordinal))
              (renumber previous (kept.map (·.ordinal)) added).2) :=
  byOrdinal_perm _

/-- Numbering drops nothing. -/
theorem length_numberPlacements
    : (numberPlacements previous kept added).length = kept.length + added.length := by
  have parts := (renumbered previous (kept.map (·.ordinal)) added).length
  have rest := congrArg List.length (map_ordinal_numberRest ((kept ++ (renumber previous (kept.map
    (·.ordinal)) added).1).map (·.ordinal)) (renumber previous (kept.map (·.ordinal)) added).2)
  rw [List.length_map, length_freeOrdinals] at rest
  rw [(numberPlacements_perm previous kept added).length_eq, List.length_append, List.length_append]
  omega

theorem kept_subset_numberPlacements
    : ∀ placement ∈ kept, placement ∈ numberPlacements previous kept added := by
  intro placement listed
  rw [(numberPlacements_perm previous kept added).mem_iff]
  exact List.mem_append_left _ (List.mem_append_left _ listed)

end

/-- A numbered placement was kept as it is, or added on its node. -/
theorem numberPlacements_cases (listed : placement ∈ numberPlacements previous kept added)
    : placement ∈ kept
      ∨ placement.ordinal ∉ kept.map (·.ordinal)
        ∧ ∃ source ∈ added,
            placement.nodeId = source.nodeId ∧ placement.resources = source.resources := by
  have parts := renumbered previous (kept.map (·.ordinal)) added
  rw [(numberPlacements_perm previous kept added).mem_iff, List.mem_append, List.mem_append]
    at listed
  rcases listed with (held | numbered) | rest
  · exact .inl held
  · exact .inr ⟨parts.free placement numbered, parts.numbered placement numbered⟩
  · refine .inr ⟨?_, ?_⟩
    · have free := List.mem_map_of_mem (f := fun other : Placement => other.ordinal) rest
      rw [map_ordinal_numberRest] at free
      have absent := not_taken_of_mem_freeOrdinals free
      rw [List.map_append, List.mem_append, not_or] at absent
      exact absent.1
    · obtain ⟨source, among, same⟩ := mem_numberRest rest
      exact ⟨source, parts.unnumbered source among, same⟩

/-- Numbering keeps the ordinals of an app apart. -/
theorem nodup_numberPlacements (previous added : List Placement)
    (apart : (kept.map (·.ordinal)).Nodup)
    : ((numberPlacements previous kept added).map (·.ordinal)).Nodup := by
  have parts := renumbered previous (kept.map (·.ordinal)) added
  refine ((numberPlacements_perm previous kept added).map _).nodup_iff.mpr ?_
  have front
      : ((kept ++ (renumber previous (kept.map (·.ordinal)) added).1).map (·.ordinal)).Nodup := by
    rw [List.map_append]
    refine List.nodup_append.mpr ⟨apart, parts.nodup, ?_⟩
    rintro _ held _ numbered rfl
    obtain ⟨other, listed, rfl⟩ := List.mem_map.mp numbered
    exact parts.free other listed held
  rw [List.map_append, map_ordinal_numberRest]
  refine List.nodup_append.mpr ⟨front,
    ((List.take_sublist _ _).trans List.filter_sublist).nodup List.nodup_range, ?_⟩
  rintro _ held _ free rfl
  exact not_taken_of_mem_freeOrdinals free held

variable {pass : Pass} {cache other : ClusterStateCache} {app : AppPass} {spec : WorkloadSpec}
  {placement : Placement} {homes kept : List Placement} {replicas : Replicas}

-- Turns only change what runs on the nodes

theorem resizeAll_alike (appId : AppId) (requests : Resources) (cache : ClusterStateCache)
    (kept : List Placement)
    : cache.Alike (resizeAll appId requests cache kept) := by
  refine ClusterStateCache.Related.foldl refl
    trans (fun placement _ cache => ?_) cache
  rw [resizeOne]
  split
  · exact refl cache
  · exact (release_alike _ _).trans (reserve_alike _ _)

theorem reserveAll_alike (appId : AppId) (resources : Resources) (cache : ClusterStateCache)
    (placements : List Placement)
    : cache.Alike (reserveAll cache appId resources placements) :=
  ClusterStateCache.Related.foldl refl trans
    (fun _ _ _ => reserve_alike _ _) cache

theorem countKeptReplicas_within (appId : AppId) (cache : ClusterStateCache)
    (kept : List Placement)
    : cache.Within (countKeptReplicas cache appId kept) :=
  ClusterStateCache.Related.foldl SchedulerNodeState.Within.refl SchedulerNodeState.Within.trans
    (fun _ _ _ => setReplicas_within _ _) cache

theorem Fills.alike (fills : Fills pass cache app other kept replicas) : cache.Alike other := by
  cases fills with
  | daemon daemonSet => exact resizeAll_alike _ _ _ _
  | keep count fixed some =>
    exact (resizeAll_alike _ _ _ _).trans (countKeptReplicas_within _ _ _).alike
  | goHome count fixed none homes found =>
    exact (reserveAll_alike _ _ _ _).trans (countKeptReplicas_within _ _ _).alike

theorem added_within (cache : ClusterStateCache) (app : AppPass) (replicas : Replicas)
    : cache.Within (pass.added cache app replicas).cluster :=
  placeApp_within _ _ _

theorem step_alike (pass : Pass) (state : PassState) (app : AppPass)
    : state.cache.Alike (pass.step state app).cache := by
  have turn := step_turn pass state app
  generalize pass.step state app = next at turn
  cases turn with
  | fills pending quotas admitted fills =>
    rw [fill_cache]
    exact fills.alike.trans (added_within _ _ _).alike
  | _ => exact .refl _

/-- At every turn the nodes are those the pass began with. -/
theorem run_alike (pass : Pass) (apps : List AppPass) (state : PassState)
    : state.cache.Alike (apps.foldl pass.step state).cache :=
  run_related refl trans
    fun app _ state _ => step_alike pass state app

-- What is placed

/-- What is placed is on nodes that can run the app and match its labels. -/
theorem added_cases (listed : placement ∈ (pass.added cache app replicas).placements)
    : placement.resources = app.spec.requests
      ∧ ∃ node, cache.nodes[placement.nodeId]? = some node
        ∧ pass.canRun node app.spec = true
        ∧ node.matchesLabels app.spec.requiredLabels = true := by
  cases replicas with
  | fixed count =>
    obtain ⟨same, _, alike, passes⟩ := scheduleFrom_filtered listed
    obtain ⟨node, found, passes⟩ := mem_filterNodes.mp passes
    obtain ⟨before, foundBefore, alike⟩ := alike.node found
    obtain ⟨runs, labels, _⟩ := passesFilter_iff.mp passes
    rw [alike.nodeCanRun] at runs
    rw [alike.matchesLabels] at labels
    exact ⟨same, before, foundBefore, runs, labels⟩
  | daemonSet =>
    obtain ⟨_, within, rfl⟩ := List.mem_mapIdx.mp listed
    have candidate := List.getElem_mem within
    obtain ⟨node, found, passes⟩ := mem_daemonCandidates.mp candidate
    obtain ⟨runs, labels, _⟩ := passesFilter_iff.mp passes
    rw [(creditNode_alike node).nodeCanRun] at runs
    rw [(creditNode_alike node).matchesLabels] at labels
    exact ⟨rfl, node, found, runs, labels⟩

/-- What is placed beside what is kept is never more than what is left to place. -/
theorem length_added (cache : ClusterStateCache) (app : AppPass) (count : Nat)
    : (pass.added cache app (.fixed count)).placements.length
        + ((pass.added cache app (.fixed count)).unplaced.map Unplaced.missing).getD 0
      = count :=
  length_scheduleFrom count 0 cache

-- What is kept

variable {prepared : ClusterStateCache}

/-- The daemon copies an app holds on to are committed. -/
theorem Planned.held_sublist (planned : pass.Planned prepared app)
    : app.heldDaemons.Sublist (pass.desired.placementsOf app.appId) := by
  rw [planned.made]
  show ((pass.wants prepared app.appId app.spec).2).Sublist _
  rw [wants]
  split
  · exact List.nil_sublist _
  · exact List.nil_sublist _
  · exact List.filter_sublist

theorem keptOf_subperm (planned : pass.Planned prepared app)
    : (pass.keptOf cache app).Subperm (pass.desired.placementsOf app.appId) := by
  rw [keptOf]
  split
  · refine (List.take_sublist _ _).subperm.trans ?_
    exact (byOrdinal_perm _).subperm.trans List.filter_sublist.subperm
  · exact planned.held_sublist.subperm

theorem keptOf_fixed {count : Nat} (fixed : app.replicas = .fixed count)
    : pass.keptOf cache app
      = (byOrdinal ((pass.desired.placementsOf app.appId).filter
          (pass.keeps app.appId app.spec cache))).take app.want := by
  rw [keptOf, fixed]

-- Volume homes

/-- A replica that goes back to its home. -/
structure HomeAt (pass : Pass) (cache : ClusterStateCache) (spec : WorkloadSpec) (start : Nat)
    (nodes : List NodeId) (home : Placement)
    : Prop where
  resources : home.resources = spec.requests
  checked : pass.checkHome cache spec home.nodeId = .home
  after : start ≤ home.ordinal
  position : nodes[home.ordinal - start]? = some home.nodeId

theorem findHomes_placed {start : Nat} {nodes : List NodeId}
    (found : pass.findHomes cache spec start nodes = .placed homes)
    : (∀ home ∈ homes, HomeAt pass cache spec start nodes home)
      ∧ homes.Pairwise (fun left right => left.ordinal < right.ordinal)
      ∧ (homes.map (·.nodeId)).Sublist nodes := by
  induction nodes generalizing start homes with
  | nil =>
    cases found
    exact ⟨fun _ listed => (List.not_mem_nil listed).elim, .nil, .slnil⟩
  | cons first rest ih =>
    have shift {homes : List Placement}
        (later : ∀ home ∈ homes, HomeAt pass cache spec (start + 1) rest home)
        : ∀ home ∈ homes, HomeAt pass cache spec start (first :: rest) home := by
      intro home listed
      obtain ⟨resources, checked, _, position⟩ := later home listed
      refine ⟨resources, checked, by omega, ?_⟩
      rw [show home.ordinal - start = home.ordinal - (start + 1) + 1 by omega,
        List.getElem?_cons_succ]
      exact position
    rw [findHomes] at found
    split at found
    · cases found
    · obtain ⟨later, sorted, within⟩ := ih found
      exact ⟨shift later, sorted, within.cons _⟩
    · rename_i checked
      split at found
      · rename_i rest' foundRest
        obtain ⟨later, sorted, within⟩ := ih foundRest
        obtain rfl := HomeOutcome.placed.inj found
        refine ⟨?_, ?_, within.cons_cons _⟩
        · intro home listed
          rcases List.mem_cons.mp listed with rfl | listed
          · refine ⟨rfl, checked, Nat.le_refl _, ?_⟩
            rw [Nat.sub_self]
            rfl
          · exact shift later home listed
        · exact List.pairwise_cons.mpr ⟨fun home listed => (later home listed).after, sorted⟩
      · cases found

theorem homesOf_placed {appId : AppId} {want : Nat}
    (found : pass.homesOf cache appId spec want = .placed homes)
    : homes = []
      ∨ ∃ lastNodes, pass.desired.lastPlacedNodes[appId]? = some lastNodes
        ∧ spec.hasManagedVolume = true
        ∧ pass.findHomes cache spec 0 (lastNodes.take want) = .placed homes := by
  rw [homesOf] at found
  split at found
  · rename_i lastNodes known
    split at found
    · next managed => exact .inr ⟨lastNodes, known, managed, found⟩
    · exact .inl (HomeOutcome.placed.inj found).symm
  · exact .inl (HomeOutcome.placed.inj found).symm

theorem checkHome_home {nodeId : NodeId} (checked : pass.checkHome cache spec nodeId = .home)
    : pass.desired.retiredNodes.contains nodeId = false
      ∧ ∃ node, cache.nodes[nodeId]? = some node
        ∧ node.matchesLabels spec.requiredLabels = true ∧ pass.canRun node spec = true
        ∧ node.canFit spec.requests = true := by
  rw [checkHome] at checked
  split at checked
  · cases checked
  rename_i present
  split at checked
  · cases checked
  split at checked
  · cases checked
  rename_i node found
  split at checked
  · cases checked
  rename_i labels
  split at checked
  · cases checked
  split at checked
  · cases checked
  rename_i runs
  split at checked
  · cases checked
  rename_i room
  simp only [Bool.not_eq_true', Bool.not_eq_false] at labels runs room
  exact ⟨Bool.not_eq_true _ ▸ present, node, found, labels, runs, room⟩

/-- Homes are at most as many as wanted. -/
theorem length_homesOf {appId : AppId} {want : Nat}
    (found : pass.homesOf cache appId spec want = .placed homes)
    : homes.length ≤ want := by
  rcases homesOf_placed found with rfl | ⟨_, _, _, found⟩
  · exact Nat.zero_le _
  have within := (findHomes_placed found).2.2.length_le
  rw [List.length_map, List.length_take] at within
  omega

-- What a turn decides on

/-- A placement on a node that can run the app and carries its labels. -/
structure Fresh (pass : Pass) (cache : ClusterStateCache) (spec : WorkloadSpec)
    (placement : Placement)
    : Prop where
  resources : placement.resources = spec.requests
  node
    : ∃ node, cache.nodes[placement.nodeId]? = some node ∧ pass.canRun node spec = true
      ∧ node.matchesLabels spec.requiredLabels = true

def Committed (pass : Pass) (appId : AppId) (placement : Placement) : Prop :=
  ∃ before ∈ pass.desired.placementsOf appId,
    before.nodeId = placement.nodeId ∧ before.ordinal = placement.ordinal

theorem Fresh.of_alike (alike : cache.Alike other) (fresh : pass.Fresh other spec placement)
    : pass.Fresh cache spec placement := by
  obtain ⟨resources, _, found, runs, labels⟩ := fresh
  obtain ⟨before, foundBefore, alike⟩ := alike.node found
  rw [canRun, alike.nodeCanRun] at runs
  rw [alike.matchesLabels] at labels
  exact ⟨resources, before, foundBefore, runs, labels⟩

/-- What an app keeps it has, in its new size, or is a home it returns to. -/
theorem Fills.mem_kept (fills : Fills pass cache app other kept replicas)
    (listed : placement ∈ kept)
    : (∃ before ∈ pass.keptOf cache app,
        placement = { before with resources := app.spec.requests })
      ∨ placement.resources = app.spec.requests
        ∧ pass.checkHome cache app.spec placement.nodeId = .home := by
  cases fills with
  | daemon | keep =>
    obtain ⟨before, among, rfl⟩ := List.mem_map.mp listed
    exact .inl ⟨before, among, rfl⟩
  | goHome count fixed none homes found =>
    rcases homesOf_placed found with rfl | ⟨_, _, _, found⟩
    · cases listed
    · have home := (findHomes_placed found).1 placement listed
      exact .inr ⟨home.resources, home.checked⟩

/-- What an app keeps is committed, or a home it returns to. -/
theorem Fills.kept_cases (planned : pass.Planned prepared app)
    (fills : Fills pass cache app other kept replicas) (listed : placement ∈ kept)
    : placement.resources = app.spec.requests
      ∧ (pass.Committed app.appId placement
        ∨ pass.checkHome cache app.spec placement.nodeId = .home) := by
  rcases fills.mem_kept listed with ⟨before, among, rfl⟩ | ⟨resources, home⟩
  · exact ⟨rfl, .inl ⟨before, (keptOf_subperm planned).subset among, rfl, rfl⟩⟩
  · exact ⟨resources, .inr home⟩

theorem mem_stranded {previous : List Placement} {missing : Nat}
    (listed : placement ∈ stranded previous kept missing)
    : placement ∈ previous ∧ placement.ordinal ∉ kept.map (·.ordinal) := by
  obtain ⟨before, free⟩ := List.mem_filter.mp (mem_byOrdinal.mp (List.mem_of_mem_take listed))
  refine ⟨before, fun held => ?_⟩
  obtain ⟨other, among, same⟩ := List.mem_map.mp held
  rw [Bool.not_eq_true', ← Bool.not_eq_true, List.any_eq_true] at free
  exact free ⟨other, among, beq_iff_eq.mpr same⟩

theorem mem_keptAndStranded {placed : Placed}
    (listed : placement ∈ pass.keptAndStranded app kept placed)
    : placement ∈ kept
      ∨ placement ∈ pass.desired.placementsOf app.appId
        ∧ placement.ordinal ∉ kept.map (·.ordinal) := by
  rw [keptAndStranded] at listed
  split at listed
  · exact (List.mem_append.mp listed).imp_right mem_stranded
  · exact .inl listed

/-- Every decided placement is committed as it is, or fresh. -/
theorem decided_cases (planned : pass.Planned prepared app)
    (fills : Fills pass cache app other kept replicas)
    (listed : placement ∈ pass.decided other app kept replicas)
    : pass.Committed app.appId placement ∨ pass.Fresh cache app.spec placement := by
  rcases numberPlacements_cases listed with held | ⟨_, _, among, node, resources⟩
  · rcases mem_keptAndStranded held with kept | ⟨before, _⟩
    · obtain ⟨resources, committed | home⟩ := fills.kept_cases planned kept
      · exact .inl committed
      · obtain ⟨_, node, found, labels, runs, _⟩ := checkHome_home home
        exact .inr ⟨resources, node, found, runs, labels⟩
    · exact .inl ⟨placement, before, rfl, rfl⟩
  · obtain ⟨sameResources, found⟩ := added_cases among
    have fresh : pass.Fresh other app.spec placement :=
      ⟨resources.trans sameResources, node ▸ found⟩
    exact .inr (fresh.of_alike fills.alike)

end Pass

end Reliaburger
