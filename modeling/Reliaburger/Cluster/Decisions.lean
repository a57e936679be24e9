import Reliaburger.Cluster.Overbooking

/-! What the decisions of a pass look like: where each placement comes from, that the ordinals of an
app stay apart and no retired node is used, and so that the council accepts the whole pass.
-/

namespace Reliaburger

namespace Pass

variable {pass : Pass} {cache prepared other : ClusterStateCache} {app : AppPass}
  {placement : Placement} {kept homes : List Placement} {replicas : Replicas}

-- What a turn reports

/-- Only an app's own turn reports it short. -/
theorem step_unschedulable {state : PassState} {appId : AppId} (different : app.appId ≠ appId)
    : (pass.step state app).unschedulable[appId]? = state.unschedulable[appId]? := by
  have turn := step_turn pass state app
  generalize pass.step state app = next at turn
  cases turn with
  | fills pending quotas admitted fills =>
    rw [fill_unschedulable]
    split
    · exact BTreeMap.get_insert_ne _ _ different
    · rfl
  | _ => rfl

theorem run_unschedulable {apps : List AppPass} {state : PassState} {appId : AppId}
    (absent : appId ∉ apps.map (·.appId))
    : (apps.foldl pass.step state).unschedulable[appId]? = state.unschedulable[appId]? := by
  induction apps generalizing state with
  | nil => rfl
  | cons first rest ih =>
    rw [List.map_cons, List.mem_cons, not_or] at absent
    rw [List.foldl_cons, ih absent.2, step_unschedulable fun same => absent.1 same.symm]

/-- An app is reported short by the pass iff its own turn reports it. -/
theorem unschedulable_turn {quotas : QuotaLedger} {before after : List AppPass}
    (turns : pass.planned (pass.prepare cache) = before ++ app :: after)
    : (pass.finish cache quotas).unschedulable[app.appId]?
        = (pass.step (pass.stateAt cache quotas app.appId) app).unschedulable[app.appId]?
      ∧ (pass.stateAt cache quotas app.appId).unschedulable[app.appId]? = none := by
  have nodup := nodup_planned pass (pass.prepare cache)
  rw [turns, List.map_append, List.map_cons] at nodup
  obtain ⟨_, later, apart⟩ := List.nodup_append.mp nodup
  rw [stateAt_eq turns, finish, turns, List.foldl_append, List.foldl_cons]
  refine ⟨run_unschedulable (List.nodup_cons.mp later).1, ?_⟩
  rw [run_unschedulable fun listed => apart _ listed _ List.mem_cons_self rfl]
  exact Std.ExtTreeMap.getElem?_empty

-- Retired nodes

def cordonNode (pass : Pass) (nodeId : NodeId) (node : SchedulerNodeState) : SchedulerNodeState :=
  if pass.desired.retiredNodes.contains nodeId then { node with ready := false } else node

theorem nodes_prepare (nodeId : NodeId)
    : (pass.prepare cache).nodes[nodeId]?
      = (reserveCommitments cache pass.desired).nodes[nodeId]?.map (pass.cordonNode nodeId) := by
  rw [prepare, cordonRetired]
  refine ClusterStateCache.nodes_foldl_keys (fun cache first second => ?_) _ nodeId
  by_cases retired : pass.desired.retiredNodes.contains first = true
  · rw [if_pos retired, ClusterStateCache.nodes_update]
    by_cases same : first = second
    · subst same
      have cordoned : pass.cordonNode first = fun node => { node with ready := false } := by
        funext node
        rw [cordonNode, if_pos retired]
      rw [if_pos rfl, if_pos rfl, cordoned]
    · rw [if_neg same, if_neg same]
  · rw [if_neg retired]
    by_cases same : first = second
    · subst same
      have unchanged : pass.cordonNode first = id := by
        funext node
        rw [cordonNode, if_neg retired]
        rfl
      rw [if_pos rfl, unchanged, Option.map_id_fun]
      rfl
    · rw [if_neg same]

/-- A pass puts nothing new on a retired node. -/
theorem Fresh.not_retired {spec : WorkloadSpec} (alike : (pass.prepare cache).Alike other)
    (fresh : pass.Fresh other spec placement)
    : pass.desired.retiredNodes.contains placement.nodeId = false := by
  obtain ⟨_, _, found, runs, _⟩ := fresh
  obtain ⟨_, foundBefore, alike⟩ := alike.node found
  rw [canRun, alike.nodeCanRun, nodeCanRun] at runs
  rw [nodes_prepare, Option.map_eq_some_iff] at foundBefore
  obtain ⟨_, _, rfl⟩ := foundBefore
  rw [← Bool.not_eq_true]
  intro retired
  rw [cordonNode, if_pos retired] at runs
  simp at runs

-- Ordinals and sizes

theorem nodup_of_subperm {first second : List Placement} (within : first.Subperm second)
    (nodup : (second.map (·.ordinal)).Nodup)
    : (first.map (·.ordinal)).Nodup := by
  obtain ⟨_, perm, sublist⟩ := within
  exact (perm.map _).nodup_iff.mp ((sublist.map _).nodup nodup)

/-- What an app keeps has the ordinals of distinct committed placements, or of distinct
positions. -/
theorem Fills.apart (planned : pass.Planned prepared app)
    (distinct : ((pass.desired.placementsOf app.appId).map (·.ordinal)).Nodup)
    (fills : Fills pass cache app other kept replicas)
    : (kept.map (·.ordinal)).Nodup := by
  have ofKept : ((resized app.spec.requests (pass.keptOf cache app)).map (·.ordinal)).Nodup := by
    rw [resized, List.map_map]
    exact nodup_of_subperm (keptOf_subperm planned) distinct
  cases fills with
  | daemon | keep => exact ofKept
  | goHome count fixed none homes found =>
    rcases homesOf_placed found with rfl | ⟨_, _, _, found⟩
    · exact List.nodup_nil
    · exact List.pairwise_map.mpr ((findHomes_placed found).2.1.imp Nat.ne_of_lt)

theorem nodup_stranded {previous : List Placement} (missing : Nat)
    (distinct : (previous.map (·.ordinal)).Nodup)
    : ((stranded previous kept missing).map (·.ordinal)).Nodup := by
  refine nodup_of_subperm ?_ distinct
  exact (List.take_sublist _ _).subperm.trans
    ((byOrdinal_perm _).subperm.trans List.filter_sublist.subperm)

theorem keptAndStranded_apart {placed : Placed}
    (distinct : ((pass.desired.placementsOf app.appId).map (·.ordinal)).Nodup)
    (apart : (kept.map (·.ordinal)).Nodup)
    : ((pass.keptAndStranded app kept placed).map (·.ordinal)).Nodup := by
  rw [keptAndStranded]
  split
  · rw [List.map_append]
    refine List.nodup_append.mpr ⟨apart, nodup_stranded _ distinct, ?_⟩
    rintro _ held _ stranded rfl
    obtain ⟨_, listed, rfl⟩ := List.mem_map.mp stranded
    exact (mem_stranded listed).2 held
  · exact apart

/-- A fixed-size app keeps at most what it wants, and places the rest. -/
theorem Fills.fixed {count : Nat} (fixed : app.replicas = .fixed count)
    (fills : Fills pass cache app other kept replicas)
    : kept.length ≤ app.want ∧ replicas = .fixed (app.want - kept.length) := by
  have ofKept : (pass.keptOf cache app).length ≤ app.want := by
    rw [keptOf_fixed fixed, List.length_take]
    exact Nat.min_le_left _ _
  cases fills with
  | daemon daemonSet =>
    rw [fixed] at daemonSet
    cases daemonSet
  | keep count fixed some =>
    rw [resized, List.length_map]
    exact ⟨ofKept, rfl⟩
  | goHome count fixed none homes found => exact ⟨length_homesOf found, rfl⟩

/-- A fixed-size app gets at most the placements it wants. -/
theorem length_decided_le {count : Nat} (fixed : app.replicas = .fixed count)
    (fills : Fills pass cache app other kept replicas)
    : (pass.decided other app kept replicas).length ≤ app.want := by
  obtain ⟨_, rfl⟩ := fills.fixed fixed
  have parts := @length_added pass other app (app.want - kept.length)
  rw [decided, length_numberPlacements, keptAndStranded]
  split
  · rename_i unplaced short
    rw [short, Option.map_some, Option.getD_some] at parts
    rw [List.length_append, stranded, List.length_take]
    omega
  · omega

/-- When an app is short, a committed placement is dropped only if another took its ordinal or the
app has all it wants. -/
theorem decided_short {unplaced : Unplaced}
    (short : (pass.added other app replicas).unplaced = some unplaced)
    (fills : Fills pass cache app other kept replicas)
    (committed : placement ∈ pass.desired.placementsOf app.appId)
    : (∃ holder ∈ pass.decided other app kept replicas, holder.ordinal = placement.ordinal)
      ∨ (pass.decided other app kept replicas).length = app.want := by
  have inDecided (holder : Placement)
      (listed : holder ∈ pass.keptAndStranded app kept (pass.added other app replicas))
      : holder ∈ pass.decided other app kept replicas :=
    kept_subset_numberPlacements _ _ _ holder listed
  rw [keptAndStranded, short] at inDecided
  by_cases held : ∃ holder ∈ kept, holder.ordinal = placement.ordinal
  · obtain ⟨holder, listed, same⟩ := held
    exact .inl ⟨holder, inDecided holder (List.mem_append_left _ listed), same⟩
  have loose
      : placement ∈ byOrdinal ((pass.desired.placementsOf app.appId).filter (fun other =>
          !kept.any (fun holder => holder.ordinal == other.ordinal))) := by
    refine mem_byOrdinal.mpr (List.mem_filter.mpr ⟨committed, ?_⟩)
    rw [Bool.not_eq_true', ← Bool.not_eq_true, List.any_eq_true]
    rintro ⟨holder, listed, same⟩
    exact held ⟨holder, listed, beq_iff_eq.mp same⟩
  -- Either everything loose stays where it was, or as much of it as is missing.
  rcases Nat.lt_or_ge unplaced.missing (byOrdinal ((pass.desired.placementsOf app.appId).filter
      (fun other => !kept.any (fun holder => holder.ordinal == other.ordinal)))).length
    with _ | all
  · cases replicas with
    | daemonSet => cases short
    | fixed left =>
      right
      have parts := @length_added pass other app left
      rw [short, Option.map_some, Option.getD_some] at parts
      have size : ∃ count, app.replicas = .fixed count := by
        cases fills with
        | keep count fixed some => exact ⟨count, fixed⟩
        | goHome count fixed none homes found => exact ⟨count, fixed⟩
      obtain ⟨_, fixed⟩ := size
      obtain ⟨_, rest⟩ := fills.fixed fixed
      obtain rfl := Replicas.fixed.inj rest
      rw [decided, length_numberPlacements, keptAndStranded, short, List.length_append,
        stranded, List.length_take]
      omega
  · refine .inl ⟨placement, inDecided placement (List.mem_append_right _ ?_), rfl⟩
    rw [stranded, List.take_of_length_le all]
    exact loose

-- Where placements come from

/-- A node passes an app's hard filters when the app gets a placement on it: as a volume home that
can take the app, with exactly the replicas before it reserved, or with the daemon copies it
replaces credited back.
-/
inductive Filtered (pass : Pass) (cache : ClusterStateCache) (app : AppPass) (nodeId : NodeId)
    : Prop
  | home (checked : pass.checkHome cache app.spec nodeId = .home)
  | replica {other : ClusterStateCache} {kept : List Placement} {count : Nat}
    (fills : Fills pass cache app other kept (.fixed count)) (position : Nat)
    (placed : (pass.added other app (.fixed count)).placements[position]?.map (·.nodeId)
      = some nodeId)
    (passes : nodeId ∈ filterNodes (.forApp app.spec pass.dnsRequired)
      (reserveAll other app.appId app.spec.requests
        ((pass.added other app (.fixed count)).placements.take position)))
  | copy {other : ClusterStateCache} {kept : List Placement}
    (fills : Fills pass cache app other kept .daemonSet)
    (passes : nodeId ∈ daemonCandidates other app.appId
      (pass.desired.committedFootprints app.appId) (.forApp app.spec pass.dnsRequired))

/-- Each replica that is placed passes the filters once the replicas before it are reserved; by
induction on how many are left to place.
-/
theorem scheduleFrom_passes {appId : AppId} {requirements : WorkloadRequirements}
    {preferred : BTreeMap String String} {image : Option String} {count ordinal position : Nat}
    (listed : (scheduleFrom appId requirements preferred image ordinal count
      cache).placements[position]? = some placement)
    : placement.nodeId
      ∈ filterNodes requirements (reserveAll cache appId requirements.resources
          ((scheduleFrom appId requirements preferred image ordinal count cache).placements.take
            position)) := by
  induction count generalizing ordinal cache position with
  | zero => cases listed
  | succ count ih =>
    rw [scheduleFrom] at listed ⊢
    split at listed
    · cases listed
    rename_i nodeId selected
    cases position with
    | zero =>
      cases listed
      exact selectNode_mem selected
    | succ position => exact ih listed

theorem Fills.filtered (fills : Fills pass cache app other kept replicas)
    (listed : placement ∈ (pass.added other app replicas).placements)
    : pass.Filtered cache app placement.nodeId := by
  cases replicas with
  | fixed count =>
    obtain ⟨position, found⟩ := List.mem_iff_getElem?.mp listed
    refine .replica fills position ?_ (scheduleFrom_passes found)
    rw [found]
    rfl
  | daemonSet =>
    obtain ⟨_, within, rfl⟩ := List.mem_mapIdx.mp listed
    exact .copy fills (List.getElem_mem within)

/-- Where a decided placement comes from: it is kept, stranded by an app that is short, or added on
a node that passes the filters. -/
inductive Source (pass : Pass) (cache : ClusterStateCache) (app : AppPass) (short : Prop)
    (placement : Placement)
    : Prop
  | kept (before : Placement) (listed : before ∈ pass.keptOf cache app)
    (node : before.nodeId = placement.nodeId) (ordinal : before.ordinal = placement.ordinal)
  | stranded (short : short) (committed : placement ∈ pass.desired.placementsOf app.appId)
  | added (filtered : pass.Filtered cache app placement.nodeId)

section

variable (fills : Fills pass cache app other kept replicas)
include fills

theorem Fills.source {short : Prop}
    (listed : placement ∈ kept)
    : pass.Source cache app short placement := by
  rcases fills.mem_kept listed with ⟨before, among, rfl⟩ | ⟨_, home⟩
  · exact .kept before among rfl rfl
  · exact .added (.home home)

theorem decided_source (listed : placement ∈ pass.decided other app kept replicas)
    : pass.Source cache app ((pass.added other app replicas).unplaced.isSome = true) placement := by
  rcases numberPlacements_cases listed with held | ⟨_, _, among, node, _⟩
  · rw [keptAndStranded] at held
    split at held
    · rename_i unplaced short
      rcases List.mem_append.mp held with kept | stranded
      · exact fills.source kept
      · exact .stranded (by rw [short]; rfl) (mem_stranded stranded).1
    · exact fills.source held
  · exact .added (node ▸ fills.filtered among)

/-- What an app keeps holds its node and ordinal. -/
theorem Fills.keeps (listed : placement ∈ pass.keptOf cache app)
    : ∃ holder ∈ kept, holder.nodeId = placement.nodeId ∧ holder.ordinal = placement.ordinal := by
  have ofKept
      : ∃ holder ∈ resized app.spec.requests (pass.keptOf cache app),
          holder.nodeId = placement.nodeId ∧ holder.ordinal = placement.ordinal :=
    ⟨_, List.mem_map_of_mem listed, rfl, rfl⟩
  cases fills with
  | daemon | keep => exact ofKept
  | goHome count fixed none homes found =>
    rw [none] at listed
    cases listed

end

-- Decisions

/-- What a decision for an app looks like, with the cache at its turn. -/
structure SoundDecision (pass : Pass) (cache : ClusterStateCache) (app : AppPass) (short : Prop)
    (decision : SchedulingDecision)
    : Prop where
  apart : (decision.placements.map (·.ordinal)).Nodup
  active
    : ∀ placement ∈ decision.placements,
        pass.desired.retiredNodes.contains placement.nodeId = false
  wanted : ∀ count, app.replicas = .fixed count → decision.placements.length ≤ count
  /-- Of what stays, the lowest wanted ordinals keep their nodes. -/
  keeps
    : ∀ count, app.replicas = .fixed count
      → ∀ placement ∈ (byOrdinal ((pass.desired.placementsOf app.appId).filter
          (pass.keeps app.appId app.spec cache))).take count,
        ∃ holder ∈ decision.placements,
          holder.nodeId = placement.nodeId ∧ holder.ordinal = placement.ordinal
  source : ∀ placement ∈ decision.placements, pass.Source cache app short placement
  /-- A short app drops a committed placement only if another has its ordinal or nothing more is
  wanted. -/
  held
    : short → ∀ placement ∈ pass.desired.placementsOf app.appId,
        (∃ holder ∈ decision.placements, holder.ordinal = placement.ordinal)
        ∨ decision.placements.length = app.want

theorem Planned.want_fixed (planned : pass.Planned prepared app) {count : Nat}
    (fixed : app.replicas = .fixed count)
    : app.want = count := by
  rw [planned.made] at fixed ⊢
  show (pass.wants prepared app.appId app.spec).1 = count
  rw [wants_eq, fixed]

theorem decided_sound (planned : pass.Planned (pass.prepare cache) app)
    (alike : (pass.prepare cache).Alike other)
    (distinct : ((pass.desired.placementsOf app.appId).map (·.ordinal)).Nodup)
    (active : ∀ placement ∈ pass.desired.placementsOf app.appId,
      pass.desired.retiredNodes.contains placement.nodeId = false)
    {turn : ClusterStateCache} (fills : Fills pass other app turn kept replicas)
    : pass.SoundDecision other app ((pass.added turn app replicas).unplaced.isSome = true)
        ⟨app.appId, pass.decided turn app kept replicas⟩ where
  apart := nodup_numberPlacements _ _
    (keptAndStranded_apart distinct (fills.apart planned distinct))
  active := by
    intro placement listed
    rcases decided_cases planned fills listed with ⟨before, committed, node, _⟩ | fresh
    · exact node ▸ active before committed
    · exact fresh.not_retired alike
  wanted := by
    intro count fixed
    rw [← planned.want_fixed fixed]
    exact length_decided_le fixed fills
  keeps := by
    intro count fixed placement listed
    rw [← planned.want_fixed fixed, ← keptOf_fixed fixed] at listed
    obtain ⟨holder, among, same⟩ := fills.keeps listed
    refine ⟨holder, kept_subset_numberPlacements _ _ _ holder ?_, same⟩
    rw [keptAndStranded]
    split
    · exact List.mem_append_left _ among
    · exact among
  source := fun _ listed => decided_source fills listed
  held := by
    intro short placement committed
    obtain ⟨_, short⟩ := Option.isSome_iff_exists.mp short
    exact decided_short short fills committed

end Pass

end Reliaburger
