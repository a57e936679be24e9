import Reliaburger.Meat.CacheChanges

/-! One scheduling pass of the leader: which apps are converged, which are admitted by their
namespace's quota, and where the replicas of the others go. Turn by turn, an app leaves the
placements alone or fills up what it keeps, and every decision was made at the turn of one app.
-/

namespace Reliaburger

-- Quota admission

def accumulate (entry : NamespaceUsage) (perReplica : Resources) (replicas : Nat)
    (countApp : Bool)
    : NamespaceUsage where
  cpuMillicores :=
    saturatingAdd entry.cpuMillicores (saturatingMul perReplica.cpuMillicores replicas)
  memoryBytes := saturatingAdd entry.memoryBytes (saturatingMul perReplica.memoryBytes replicas)
  gpus := saturatingAdd32 entry.gpus (saturatingMul32 perReplica.gpus replicas)
  appCount := if countApp then saturatingAdd32 entry.appCount 1 else entry.appCount
  replicaCount := saturatingAdd32 entry.replicaCount replicas

namespace QuotaLedger

def charge (ledger : QuotaLedger) (ns : String) (perReplica : Resources) (replicas : Nat)
    (countApp : Bool)
    : QuotaLedger :=
  { ledger with
    usage := ledger.usage.insert ns (accumulate (ledger.used ns) perReplica replicas countApp) }

/-- Record an already committed app's footprint without an admission check. -/
def chargeCommitted (ledger : QuotaLedger) (ns : String) (perReplica : Resources)
    (replicas : Nat)
    : QuotaLedger :=
  ledger.charge ns perReplica replicas true

/-- Record an app's footprint if it fits its namespace's quota. -/
def tryAdmit (ledger : QuotaLedger) (ns : String) (perReplica : Resources) (replicas : Nat)
    (isNewApp : Bool)
    : Except QuotaError QuotaLedger := do
  if let some quota := ledger.quotas[ns]? then
    checkQuota ns quota (ledger.used ns) perReplica replicas isNewApp
  pure (ledger.charge ns perReplica replicas isNewApp)

end QuotaLedger

-- What a pass reads

/-- What a pass knows about the members. `lapsed` nodes are alive, but their reports have been
stale for longer than the grace. -/
structure PassMembers where
  alive : BTreeSet NodeId
  suspect : BTreeSet NodeId
  unheard : BTreeSet NodeId
  lapsed : BTreeSet NodeId

structure ScheduledState where
  apps : BTreeMap AppId WorkloadSpec
  stoppedApps : BTreeSet AppId := ∅
  autoscaleOverrides : List (String × Nat) := []
  scheduling : BTreeMap AppId (List Placement) := ∅
  lastPlacedNodes : BTreeMap AppId (List NodeId) := ∅
  retiredNodes : BTreeSet NodeId := ∅

namespace ScheduledState

variable (desired : ScheduledState)

def placementsOf (appId : AppId) : List Placement :=
  desired.scheduling[appId]?.getD []

/-- Commit a decision: it replaces the app's placements, and where the app ran outlives a stop. -/
def commit (decision : SchedulingDecision) : ScheduledState :=
  { desired with
    scheduling := desired.scheduling.insert decision.appId decision.placements
    lastPlacedNodes :=
      if decision.placements.isEmpty then desired.lastPlacedNodes
      else
        desired.lastPlacedNodes.insert decision.appId
          ((decision.placements.insertionSort
            (fun left right : Placement => left.ordinal ≤ right.ordinal)).map (·.nodeId)) }

def commitAll (decisions : List SchedulingDecision) : ScheduledState :=
  decisions.foldl commit desired

/-- A stop or the autoscaler's replica count, over the spec's. -/
def overrideReplicas (appId : AppId) : Option Nat :=
  if desired.stoppedApps.contains appId then some 0
  else (desired.autoscaleOverrides.find? (fun entry => entry.1 == appId.text)).map Prod.snd

def committedFootprints (appId : AppId) : BTreeMap NodeId Resources :=
  (desired.placementsOf appId).foldl
    (fun map placement => map.insert placement.nodeId placement.resources) ∅

end ScheduledState

/-- Reserve every committed placement using exact reported ordinals. -/
def reserveCommitments (cache : ClusterStateCache) (desired : ScheduledState)
    : ClusterStateCache :=
  desired.scheduling.toList.foldl
    (fun cache entry => entry.2.foldl
      (fun cache placement => cache.reserveCommittedInstance placement.nodeId entry.1
        placement.ordinal placement.resources) cache) cache

structure Pass where
  desired : ScheduledState
  members : PassMembers
  dnsRequired : Bool

namespace Pass

variable (pass : Pass)

variable (cache : ClusterStateCache)

/-- A retired node takes no new work. -/
def cordonRetired : ClusterStateCache :=
  cache.nodes.keys.foldl
    (fun cache nodeId =>
      if pass.desired.retiredNodes.contains nodeId then
        cache.update nodeId (fun node => { node with ready := false })
      else cache) cache

def prepare : ClusterStateCache :=
  pass.cordonRetired (reserveCommitments cache pass.desired)

-- Which placements stay

def canRun (node : SchedulerNodeState) (spec : WorkloadSpec) : Bool :=
  nodeCanRun node (.forApp spec pass.dnsRequired)

/-- Whether a placement's node is alive, ready and can enforce what the spec needs. A suspect node
and one that hasn't reported yet keep theirs. -/
def placementHolds (placement : Placement) (spec : WorkloadSpec) (cache : ClusterStateCache)
    : Bool :=
  if pass.members.suspect.contains placement.nodeId then true
  else if !pass.members.alive.contains placement.nodeId
      || pass.members.lapsed.contains placement.nodeId then false
  else if pass.members.unheard.contains placement.nodeId then true
  else cache.nodes[placement.nodeId]?.all (fun node => pass.canRun node spec)

/-- Whether a placement's node has room for the current request once the footprint the placement
was committed with is credited back. -/
def admitsInPlace (placement : Placement) (spec : WorkloadSpec) (cache : ClusterStateCache)
    : Bool :=
  placement.resources == spec.requests
  || cache.nodes[placement.nodeId]?.all (fun node =>
    (node.allocatable.saturatingSub (node.allocated.saturatingSub placement.resources)).fits
      spec.requests)

def keepsVolumeHome (placement : Placement) (spec : WorkloadSpec) : Bool :=
  spec.hasManagedVolume && !pass.desired.retiredNodes.contains placement.nodeId

/-- Whether a committed placement stays on its node this pass. -/
def keeps (appId : AppId) (spec : WorkloadSpec) (cache : ClusterStateCache)
    (placement : Placement)
    : Bool :=
  if cache.nodes[placement.nodeId]?.any (fun node => !node.matchesLabels spec.requiredLabels) then
    false
  else if pass.keepsVolumeHome placement spec then true
  else if cache.capacityRefused placement.nodeId appId placement.ordinal then false
  else pass.placementHolds placement spec cache && admitsInPlace placement spec cache

-- What each app wants

structure AppPass where
  appId : AppId
  spec : WorkloadSpec
  overrideReplicas : Option Nat
  want : Nat
  converged : Bool
  /-- A daemon set's copies on nodes that aren't eligible now but still hold. -/
  heldDaemons : List Placement

/-- A fixed size that overrides the spec's. -/
def AppPass.replicas (app : AppPass) : Replicas :=
  match app.overrideReplicas with
  | some count => .fixed count
  | none => app.spec.replicas

def eligibleNodes (appId : AppId) (spec : WorkloadSpec) : List NodeId :=
  daemonCandidates cache appId (pass.desired.committedFootprints appId)
    (.forApp spec pass.dnsRequired)

def heldDaemons (appId : AppId) (spec : WorkloadSpec) : List Placement :=
  let eligible := pass.eligibleNodes cache appId spec
  (pass.desired.placementsOf appId).filter (fun placement =>
    !eligible.contains placement.nodeId && pass.keeps appId spec cache placement)

/-- The replicas an app should have, and the daemon copies it holds on to. -/
def wants (appId : AppId) (spec : WorkloadSpec) : Nat × List Placement :=
  match pass.desired.overrideReplicas appId, spec.replicas with
  | some count, _ => (count, [])
  | none, .fixed count => (count, [])
  | none, .daemonSet =>
    let held := pass.heldDaemons cache appId spec
    ((pass.eligibleNodes cache appId spec).length + held.length, held)

/-- There are as many committed placements as wanted, and every one asks for what the spec requests
and stays. -/
def isConverged (appId : AppId) (spec : WorkloadSpec) : Bool :=
  pass.desired.scheduling[appId]?.any (fun placements =>
    placements.length == (pass.wants cache appId spec).1
    && placements.all (fun placement =>
      placement.resources == spec.requests && pass.keeps appId spec cache placement))

def planApp (appId : AppId) (spec : WorkloadSpec) : AppPass where
  appId := appId
  spec := spec
  overrideReplicas := pass.desired.overrideReplicas appId
  want := (pass.wants cache appId spec).1
  converged := pass.isConverged cache appId spec
  heldDaemons := (pass.wants cache appId spec).2

/-- The desired apps in the order of their turns: by the text of their ids. -/
def entries : List (AppId × WorkloadSpec) :=
  pass.desired.apps.toList.insertionSort
    (fun left right : AppId × WorkloadSpec => (compare left.1.text right.1.text).isLE)

def planned : List AppPass :=
  pass.entries.map (fun entry => pass.planApp cache entry.1 entry.2)

/-- Charge every converged app before any other is admitted. -/
def seedQuotas (planned : List AppPass) (quotas : QuotaLedger) : QuotaLedger :=
  if quotas.quotas.isEmpty then quotas
  else
    (planned.filter (·.converged)).foldl
      (fun ledger app => ledger.chargeCommitted app.appId.ns app.spec.requests app.want) quotas

-- The placements of one app

def byOrdinal (placements : List Placement) : List Placement :=
  placements.insertionSort (fun left right : Placement => left.ordinal ≤ right.ordinal)

/-- Whether what is planned is exactly what is committed, in whatever order. -/
def samePlacements (committed planned : List Placement) : Bool :=
  byOrdinal committed == planned

def freeOrdinals (taken : List Nat) (count : Nat) : List Nat :=
  ((List.range (taken.length + count)).filter (fun ordinal => !taken.contains ordinal)).take count

/-- Placements that take the ordinal their node held before, as long as it is free, and those that
still need one. -/
def renumber (previous : List Placement)
    : List Nat → List Placement → List Placement × List Placement
  | _, [] => ([], [])
  | taken, placement :: rest =>
    match previous.find? (fun held =>
        held.nodeId == placement.nodeId && !taken.contains held.ordinal) with
    | some held =>
      let (numbered, unnumbered) := renumber previous (held.ordinal :: taken) rest
      ({ placement with ordinal := held.ordinal } :: numbered, unnumbered)
    | none =>
      let (numbered, unnumbered) := renumber previous taken rest
      (numbered, placement :: unnumbered)

/-- What is numbered last takes the lowest free ordinals. -/
def numberRest (taken : List Nat) (unnumbered : List Placement) : List Placement :=
  List.zipWith (fun (placement : Placement) ordinal => { placement with ordinal })
    unnumbered (freeOrdinals taken unnumbered.length)

/-- Give an app's placements their ordinals, distinct within the app, lowest first. -/
def numberPlacements (previous kept added : List Placement) : List Placement :=
  let (numbered, unnumbered) := renumber previous (kept.map (·.ordinal)) added
  byOrdinal (kept ++ numbered ++ numberRest ((kept ++ numbered).map (·.ordinal)) unnumbered)

/-- Record exactly the kept replicas of an app, so that the rest is spread around them. -/
def countKeptReplicas (appId : AppId) (kept : List Placement) : ClusterStateCache :=
  cache.nodes.keys.foldl
    (fun cache nodeId => cache.setReplicas nodeId appId
      (kept.countP (fun placement => placement.nodeId == nodeId))) cache

/-- Why an app waits for the node that holds its volumes. -/
inductive HomeWait where
  | away
  | unreported
  | notReady
  | noRoom
deriving DecidableEq, Repr

/-- What returning to one home comes to: the operator released it, the app waits for it, or the
replica goes back. -/
inductive HomeCheck where
  | released
  | wait (reason : HomeWait)
  | home
deriving DecidableEq, Repr

def checkHome (spec : WorkloadSpec) (nodeId : NodeId) : HomeCheck :=
  if pass.desired.retiredNodes.contains nodeId then .released
  else if pass.members.suspect.contains nodeId || !pass.members.alive.contains nodeId then
    .wait .away
  else
    match cache.nodes[nodeId]? with
    | none => .wait .unreported
    | some node =>
      if !node.matchesLabels spec.requiredLabels then .released
      else if pass.members.unheard.contains nodeId then .wait .unreported
      else if !pass.canRun node spec then .wait .notReady
      else if !node.canFit spec.requests then .wait .noRoom
      else .home

inductive HomeOutcome where
  | placed (placements : List Placement)
  | wait (node : NodeId) (reason : HomeWait)
deriving DecidableEq, Repr

/-- The homes from an ordinal on; each gets the ordinal of its position. -/
def findHomes (cache : ClusterStateCache) (spec : WorkloadSpec)
    : Nat → List NodeId → HomeOutcome
  | _, [] => .placed []
  | ordinal, nodeId :: rest =>
    match pass.checkHome cache spec nodeId with
    | .wait reason => .wait nodeId reason
    | .released => findHomes cache spec (ordinal + 1) rest
    | .home =>
      match findHomes cache spec (ordinal + 1) rest with
      | .placed homes => .placed (⟨nodeId, spec.requests, ordinal⟩ :: homes)
      | .wait node reason => .wait node reason

/-- The nodes an app without placements returns to, if it has a managed volume. -/
def homesOf (appId : AppId) (spec : WorkloadSpec) (want : Nat) : HomeOutcome :=
  match pass.desired.lastPlacedNodes[appId]? with
  | some lastNodes =>
    if spec.hasManagedVolume then pass.findHomes cache spec 0 (lastNodes.take want)
    else .placed []
  | none => .placed []

def reserveAll (appId : AppId) (resources : Resources) (placements : List Placement)
    : ClusterStateCache :=
  placements.foldl (fun cache placement => cache.reserve placement.nodeId appId resources) cache

/-- The placements an app keeps before anything is placed. A scale-down keeps the lowest
ordinals. -/
def keptOf (app : AppPass) : List Placement :=
  match app.replicas with
  | .fixed _ =>
    (byOrdinal ((pass.desired.placementsOf app.appId).filter
      (pass.keeps app.appId app.spec cache))).take app.want
  | .daemonSet => app.heldDaemons

/-- A kept replica whose request changed trades its footprint for the new one. -/
def resizeOne (appId : AppId) (requests : Resources) (cache : ClusterStateCache)
    (placement : Placement)
    : ClusterStateCache :=
  if placement.resources = requests then cache
  else (cache.release placement.nodeId appId placement.resources).reserve placement.nodeId appId
    requests

def resizeAll (appId : AppId) (requests : Resources) (cache : ClusterStateCache)
    (kept : List Placement)
    : ClusterStateCache :=
  kept.foldl (resizeOne appId requests) cache

-- The pass

structure Unschedulable where
  placed : Nat
  wanted : Nat
  reason : UnplacedReason
deriving DecidableEq, Repr

structure PassState where
  cache : ClusterStateCache
  quotas : QuotaLedger
  decisions : List SchedulingDecision := []
  quotaBlocked : BTreeMap AppId QuotaError := ∅
  unschedulable : BTreeMap AppId Unschedulable := ∅

/-- Committed placements that no longer hold, but have nowhere else to go. -/
def stranded (previous kept : List Placement) (missing : Nat) : List Placement :=
  (byOrdinal (previous.filter (fun placement =>
    !kept.any (fun other => other.ordinal == placement.ordinal)))).take missing

/-- Place what an app still misses beside what it keeps, and decide if that is news. -/
def fill (state : PassState) (app : AppPass) (kept : List Placement) (replicas : Replicas)
    : PassState :=
  let previous := pass.desired.placementsOf app.appId
  let placed := placeApp app.appId app.spec replicas pass.dnsRequired
    (pass.desired.committedFootprints app.appId) state.cache
  let unschedulable :=
    match placed.unplaced with
    | some unplaced => state.unschedulable.insert app.appId
        ⟨kept.length + placed.placements.length, app.want, unplaced.reason⟩
    | none => state.unschedulable
  let kept :=
    match placed.unplaced with
    | some unplaced => kept ++ stranded previous kept unplaced.missing
    | none => kept
  let placements := numberPlacements previous kept placed.placements
  { state with
    cache := placed.cluster
    unschedulable
    decisions :=
      if samePlacements previous placements then state.decisions
      else state.decisions ++ [⟨app.appId, placements⟩] }

def placeAdmitted (state : PassState) (app : AppPass) : PassState :=
  let requests := app.spec.requests
  let found := pass.keptOf state.cache app
  let cache := resizeAll app.appId requests state.cache found
  let kept := found.map (fun placement => { placement with resources := requests })
  match app.replicas with
  | .daemonSet => pass.fill { state with cache } app kept .daemonSet
  | .fixed _ =>
    let outcome :=
      if kept.isEmpty then pass.homesOf cache app.appId app.spec app.want else .placed kept
    match outcome with
    | .wait _ _ => { state with cache }
    | .placed placements =>
      let cache :=
        if kept.isEmpty then reserveAll cache app.appId requests placements else cache
      pass.fill { state with cache := countKeptReplicas cache app.appId placements } app
        placements (.fixed (app.want - placements.length))

def admitApp (quotas : QuotaLedger) (app : AppPass) : Except QuotaError QuotaLedger :=
  if quotas.quotas.isEmpty then .ok quotas
  else
    quotas.tryAdmit app.appId.ns app.spec.requests app.want
      (!pass.desired.scheduling.contains app.appId)

def step (state : PassState) (app : AppPass) : PassState :=
  if app.converged then state
  else
    match pass.admitApp state.quotas app with
    | .error refused =>
      { state with quotaBlocked := state.quotaBlocked.insert app.appId refused }
    | .ok quotas => pass.placeAdmitted { state with quotas } app

end Pass

def planPass (cache : ClusterStateCache) (desired : ScheduledState) (members : PassMembers)
    (quotas : QuotaLedger) (dnsRequired : Bool)
    : Pass.PassState :=
  let pass : Pass := ⟨desired, members, dnsRequired⟩
  let prepared := pass.prepare cache
  let planned := pass.planned prepared
  planned.foldl pass.step { cache := prepared, quotas := Pass.seedQuotas planned quotas }

-- Turns

namespace Pass

variable {pass : Pass} {state : PassState} {app : AppPass}

-- The apps of a pass

structure Planned (pass : Pass) (prepared : ClusterStateCache) (app : AppPass) : Prop where
  spec : pass.desired.apps[app.appId]? = some app.spec
  made : app = pass.planApp prepared app.appId app.spec

theorem planned_of_mem {prepared : ClusterStateCache} (listed : app ∈ pass.planned prepared)
    : pass.Planned prepared app := by
  obtain ⟨⟨_, _⟩, sorted, rfl⟩ := List.mem_map.mp listed
  exact ⟨BTreeMap.mem_toList.mp ((List.mem_insertionSort _).mp sorted), rfl⟩

theorem mem_planned {prepared : ClusterStateCache} {appId : AppId} {spec : WorkloadSpec}
    (found : pass.desired.apps[appId]? = some spec)
    : pass.planApp prepared appId spec ∈ pass.planned prepared :=
  List.mem_map.mpr ⟨(appId, spec),
    (List.mem_insertionSort _).mpr (BTreeMap.mem_toList.mpr found), rfl⟩

/-- Each app has one turn. -/
theorem nodup_planned (pass : Pass) (prepared : ClusterStateCache)
    : ((pass.planned prepared).map (·.appId)).Nodup := by
  rw [planned, entries, List.map_map]
  refine ((List.perm_insertionSort _ _).map _).nodup_iff.mpr ?_
  exact BTreeMap.nodup_keys_toList pass.desired.apps

theorem planned_of_turns {prepared : ClusterStateCache} {before after : List AppPass}
    (turns : pass.planned prepared = before ++ app :: after)
    : pass.Planned prepared app :=
  planned_of_mem (turns ▸ List.mem_append_right _ List.mem_cons_self)

/-- What an app should have, by its size. -/
theorem wants_eq (pass : Pass) (cache : ClusterStateCache) (appId : AppId) (spec : WorkloadSpec)
    : pass.wants cache appId spec
      = match (pass.planApp cache appId spec).replicas with
        | .fixed count => (count, [])
        | .daemonSet =>
          ((pass.eligibleNodes cache appId spec).length
            + (pass.heldDaemons cache appId spec).length, pass.heldDaemons cache appId spec) := by
  simp only [wants, AppPass.replicas, planApp]
  cases pass.desired.overrideReplicas appId with
  | some count => rfl
  | none => cases spec.replicas <;> rfl

-- One turn

def resized (requests : Resources) (placements : List Placement) : List Placement :=
  placements.map (fun placement => { placement with resources := requests })

/-- How an app's turn fills it up: the cache, the placements it keeps and what is left to place. -/
inductive Fills (pass : Pass) (cache : ClusterStateCache) (app : AppPass)
    : ClusterStateCache → List Placement → Replicas → Prop
  | daemon (daemonSet : app.replicas = .daemonSet)
    : Fills pass cache app (resizeAll app.appId app.spec.requests cache (pass.keptOf cache app))
      (resized app.spec.requests (pass.keptOf cache app)) .daemonSet
  | keep (count : Nat) (fixed : app.replicas = .fixed count)
    (some : pass.keptOf cache app ≠ [])
    : Fills pass cache app
      (countKeptReplicas (resizeAll app.appId app.spec.requests cache (pass.keptOf cache app))
        app.appId (resized app.spec.requests (pass.keptOf cache app)))
      (resized app.spec.requests (pass.keptOf cache app))
      (.fixed (app.want - (pass.keptOf cache app).length))
  | goHome (count : Nat) (fixed : app.replicas = .fixed count)
    (none : pass.keptOf cache app = []) (homes : List Placement)
    (found : pass.homesOf cache app.appId app.spec app.want = .placed homes)
    : Fills pass cache app
      (countKeptReplicas (reserveAll cache app.appId app.spec.requests homes) app.appId homes)
      homes (.fixed (app.want - homes.length))

def added (pass : Pass) (cache : ClusterStateCache) (app : AppPass) (replicas : Replicas)
    : Placed :=
  placeApp app.appId app.spec replicas pass.dnsRequired
    (pass.desired.committedFootprints app.appId) cache

def keptAndStranded (pass : Pass) (app : AppPass) (kept : List Placement) (placed : Placed)
    : List Placement :=
  match placed.unplaced with
  | some unplaced =>
    kept ++ stranded (pass.desired.placementsOf app.appId) kept unplaced.missing
  | none => kept

def decided (pass : Pass) (cache : ClusterStateCache) (app : AppPass) (kept : List Placement)
    (replicas : Replicas)
    : List Placement :=
  numberPlacements (pass.desired.placementsOf app.appId)
    (pass.keptAndStranded app kept (pass.added cache app replicas))
    (pass.added cache app replicas).placements

section

variable (state : PassState) (app : AppPass) (kept : List Placement) (replicas : Replicas)

theorem fill_cache
    : (pass.fill state app kept replicas).cache = (pass.added state.cache app replicas).cluster :=
  rfl

theorem fill_decisions
    : (pass.fill state app kept replicas).decisions
      = if samePlacements (pass.desired.placementsOf app.appId)
            (pass.decided state.cache app kept replicas) then state.decisions
        else state.decisions ++ [⟨app.appId, pass.decided state.cache app kept replicas⟩] :=
  rfl

theorem fill_unschedulable
    : (pass.fill state app kept replicas).unschedulable
      = match (pass.added state.cache app replicas).unplaced with
        | some unplaced => state.unschedulable.insert app.appId
            ⟨kept.length + (pass.added state.cache app replicas).placements.length, app.want,
              unplaced.reason⟩
        | none => state.unschedulable :=
  rfl

end

inductive Turn (pass : Pass) (state : PassState) (app : AppPass) : PassState → Prop
  | converged (done : app.converged = true) : Turn pass state app state
  | blocked (pending : app.converged = false) (refused : QuotaError)
    (rejected : pass.admitApp state.quotas app = .error refused)
    : Turn pass state app
      { state with quotaBlocked := state.quotaBlocked.insert app.appId refused }
  | waits (pending : app.converged = false) (quotas : QuotaLedger)
    (admitted : pass.admitApp state.quotas app = .ok quotas)
    (count : Nat) (fixed : app.replicas = .fixed count)
    (none : pass.keptOf state.cache app = []) (node : NodeId) (reason : HomeWait)
    (found : pass.homesOf state.cache app.appId app.spec app.want = .wait node reason)
    : Turn pass state app { state with quotas }
  | fills (pending : app.converged = false) (quotas : QuotaLedger)
    (admitted : pass.admitApp state.quotas app = .ok quotas)
    {cache : ClusterStateCache} {kept : List Placement} {replicas : Replicas}
    (fills : Fills pass state.cache app cache kept replicas)
    : Turn pass state app (pass.fill { state with quotas, cache } app kept replicas)

theorem placeAdmitted_cases (state : PassState) (app : AppPass)
    : (∃ count node reason, app.replicas = .fixed count ∧ pass.keptOf state.cache app = []
        ∧ pass.homesOf state.cache app.appId app.spec app.want = .wait node reason
        ∧ pass.placeAdmitted state app = state)
      ∨ ∃ cache kept replicas, Fills pass state.cache app cache kept replicas
        ∧ pass.placeAdmitted state app = pass.fill { state with cache } app kept replicas := by
  rw [placeAdmitted]
  dsimp only
  split
  · next daemonSet => exact .inr ⟨_, _, _, .daemon daemonSet, rfl⟩
  rename_i count fixed
  by_cases none : pass.keptOf state.cache app = []
  · rw [none]
    simp only [resizeAll, List.foldl_nil, List.map_nil, List.isEmpty_nil, if_true]
    split
    · rename_i node reason found
      exact .inl ⟨count, node, reason, fixed, trivial, found, rfl⟩
    · next homes found => exact .inr ⟨_, _, _, .goHome count fixed none homes found, rfl⟩
  · right
    refine ⟨_, _, _, .keep count fixed none, ?_⟩
    have some : (resized app.spec.requests (pass.keptOf state.cache app)).isEmpty = false := by
      rw [resized, List.isEmpty_map, List.isEmpty_eq_false_iff]
      exact none
    rw [show (pass.keptOf state.cache app).map (fun placement => { placement with resources :=
        app.spec.requests }) = resized app.spec.requests (pass.keptOf state.cache app) from rfl]
    simp only [some, Bool.false_eq_true, if_false]
    rw [resized, List.length_map]

theorem step_turn (pass : Pass) (state : PassState) (app : AppPass)
    : Turn pass state app (pass.step state app) := by
  rw [step]
  split
  · next done => exact .converged done
  rename_i pending
  rw [Bool.not_eq_true] at pending
  split
  · next refused rejected => exact .blocked pending refused rejected
  rename_i quotas admitted
  rcases placeAdmitted_cases { state with quotas } app with
    ⟨count, node, reason, fixed, none, found, stays⟩ | ⟨cache, kept, replicas, fills, filled⟩
  · rw [stays]
    exact .waits pending quotas admitted count fixed none node reason found
  · rw [filled]
    exact .fills pending quotas admitted fills

-- The whole pass

structure DecidedAt (pass : Pass) (state : PassState) (app : AppPass)
    (decision : SchedulingDecision)
    : Prop where
  pending : app.converged = false
  decides
    : ∃ cache kept replicas, Fills pass state.cache app cache kept replicas
      ∧ decision = ⟨app.appId, pass.decided cache app kept replicas⟩
      ∧ samePlacements (pass.desired.placementsOf app.appId) decision.placements = false

/-- A decision made at the turn of an app whose placements are filled up. -/
structure FilledAt (pass : Pass) (state : PassState) (app : AppPass)
    (decision : SchedulingDecision) (quotas : QuotaLedger) (cache : ClusterStateCache)
    (kept : List Placement) (replicas : Replicas)
    : Prop where
  pending : app.converged = false
  admitted : pass.admitApp state.quotas app = .ok quotas
  fills : Fills pass state.cache app cache kept replicas
  turn : pass.step state app = pass.fill { state with quotas, cache } app kept replicas
  made : decision = ⟨app.appId, pass.decided cache app kept replicas⟩
  news : samePlacements (pass.desired.placementsOf app.appId) decision.placements = false

theorem step_filledAt (pass : Pass) (state : PassState) (app : AppPass)
    : (pass.step state app).decisions = state.decisions
      ∨ ∃ decision, (pass.step state app).decisions = state.decisions ++ [decision]
        ∧ ∃ quotas cache kept replicas,
          pass.FilledAt state app decision quotas cache kept replicas := by
  have turn := step_turn pass state app
  generalize stepped : pass.step state app = next at turn
  cases turn with
  | @fills pending quotas admitted cache kept replicas fills =>
    rw [fill_decisions]
    split
    · exact .inl rfl
    rename_i news
    exact .inr ⟨_, rfl, quotas, cache, kept, replicas, pending, admitted, fills, stepped, rfl,
      Bool.not_eq_true _ ▸ news⟩
  | _ => exact .inl rfl

/-- A turn adds at most one decision. -/
theorem step_decisions (pass : Pass) (state : PassState) (app : AppPass)
    : (pass.step state app).decisions = state.decisions
      ∨ ∃ decision, (pass.step state app).decisions = state.decisions ++ [decision]
        ∧ pass.DecidedAt state app decision := by
  rcases step_filledAt pass state app with same |
      ⟨decision, added, _, cache, kept, replicas, filled⟩
  · exact .inl same
  · exact .inr ⟨decision, added, filled.pending, cache, kept, replicas, filled.fills, filled.made,
      filled.news⟩

variable {decision : SchedulingDecision} {apps : List AppPass}

theorem decidedAt_appId (made : pass.DecidedAt state app decision)
    : decision.appId = app.appId := by
  obtain ⟨_, _, _, _, rfl, _⟩ := made.decides
  rfl

/-- The decisions of a run of turns are for the apps of the turns, in order. -/
theorem run_decisions (apps : List AppPass) (state : PassState)
    : ∃ news, (apps.foldl pass.step state).decisions = state.decisions ++ news
      ∧ (news.map (·.appId)).Sublist (apps.map (·.appId)) := by
  induction apps generalizing state with
  | nil => exact ⟨[], (List.append_nil _).symm, .refl _⟩
  | cons app rest ih =>
    obtain ⟨news, same, within⟩ := ih (pass.step state app)
    rw [List.foldl_cons]
    rcases step_decisions pass state app with kept | ⟨decision, added, made⟩
    · exact ⟨news, same.trans (by rw [kept]), within.cons _⟩
    refine ⟨decision :: news, same.trans (by rw [added, List.append_assoc]; rfl), ?_⟩
    rw [List.map_cons, List.map_cons, decidedAt_appId made]
    exact within.cons_cons _

/-- Whatever is known of the decision a turn adds is known of every decision of a run of turns. -/
theorem run_decision {D : PassState → AppPass → SchedulingDecision → Prop}
    (steps : ∀ state app, (pass.step state app).decisions = state.decisions
      ∨ ∃ decision, (pass.step state app).decisions = state.decisions ++ [decision]
        ∧ D state app decision) {state : PassState}
    (listed : decision ∈ (apps.foldl pass.step state).decisions)
    : decision ∈ state.decisions
      ∨ ∃ before app after, apps = before ++ app :: after
        ∧ D (before.foldl pass.step state) app decision := by
  induction apps generalizing state with
  | nil => exact .inl listed
  | cons app rest ih =>
    rcases ih listed with already | ⟨before, later, after, rfl, made⟩
    · rcases steps state app with kept | ⟨_, added, made⟩
      · exact .inl (kept ▸ already)
      rw [added, List.mem_append, List.mem_singleton] at already
      rcases already with old | rfl
      · exact .inl old
      · exact .inr ⟨[], app, rest, rfl, made⟩
    · exact .inr ⟨app :: before, later, after, rfl, made⟩

/-- Every decision of a run of turns was made at one of them. -/
theorem run_decidedAt {state : PassState}
    (listed : decision ∈ (apps.foldl pass.step state).decisions)
    : decision ∈ state.decisions
      ∨ ∃ before app after, apps = before ++ app :: after
        ∧ pass.DecidedAt (before.foldl pass.step state) app decision :=
  run_decision (step_decisions pass) listed

/-- What every turn keeps along a relation of caches, a run of turns keeps. -/
theorem run_related {R : ClusterStateCache → ClusterStateCache → Prop}
    (refl : ∀ cache, R cache cache)
    (trans : ∀ {first second third}, R first second → R second third → R first third)
    {apps : List AppPass} {start : PassState}
    (steps : ∀ app ∈ apps, ∀ state : PassState, R start.cache state.cache
      → R state.cache (pass.step state app).cache)
    : R start.cache (apps.foldl pass.step start).cache := by
  have all (apps : List AppPass) (state : PassState) (reached : R start.cache state.cache)
      (steps : ∀ app ∈ apps, ∀ state : PassState, R start.cache state.cache
        → R state.cache (pass.step state app).cache)
      : R start.cache (apps.foldl pass.step state).cache := by
    induction apps generalizing state with
    | nil => exact reached
    | cons app rest ih =>
      refine ih _ (trans reached (steps app List.mem_cons_self state reached)) ?_
      exact (List.forall_mem_cons.mp steps).2
  exact all apps start (refl _) steps

/-- What holds before the first turn and is kept by each turn in its place holds after the last. -/
theorem run_turns {P : PassState → Prop} {start : PassState} (first : P start)
    (turns : ∀ before app after, apps = before ++ app :: after → P (before.foldl pass.step start)
      → P (pass.step (before.foldl pass.step start) app))
    : P (apps.foldl pass.step start) := by
  have onward (after before : List AppPass) (split : apps = before ++ after)
      (reached : P (before.foldl pass.step start))
      : P (apps.foldl pass.step start) := by
    induction after generalizing before with
    | nil =>
      rw [split, List.append_nil]
      exact reached
    | cons app rest ih =>
      refine ih (before ++ [app]) (by rw [split, List.append_assoc]; rfl) ?_
      rw [List.foldl_append]
      exact turns before app rest split reached
  exact onward apps [] rfl first

def begin (pass : Pass) (cache : ClusterStateCache) (quotas : QuotaLedger) : PassState :=
  { cache := pass.prepare cache
    quotas := seedQuotas (pass.planned (pass.prepare cache)) quotas }

/-- The state once every app has had its turn. -/
abbrev finish (pass : Pass) (cache : ClusterStateCache) (quotas : QuotaLedger) : PassState :=
  (pass.planned (pass.prepare cache)).foldl pass.step (pass.begin cache quotas)

-- The turn of an app

/-- The state that the turns before an app's own reach. -/
def stateAt (pass : Pass) (cache : ClusterStateCache) (quotas : QuotaLedger) (appId : AppId)
    : PassState :=
  ((pass.planned (pass.prepare cache)).takeWhile (fun app => app.appId ≠ appId)).foldl pass.step
    (pass.begin cache quotas)

theorem takeWhile_turn {apps before after : List AppPass} (nodup : (apps.map (·.appId)).Nodup)
    (turns : apps = before ++ app :: after)
    : apps.takeWhile (fun other => other.appId ≠ app.appId) = before := by
  rw [turns, List.map_append, List.map_cons] at nodup
  have different : ∀ earlier ∈ before, decide (earlier.appId ≠ app.appId) = true := by
    intro earlier listed
    refine decide_eq_true fun same => ?_
    have apart := (List.nodup_append.mp nodup).2.2
    exact apart _ (List.mem_map_of_mem listed) _ List.mem_cons_self same
  rw [turns, List.takeWhile_append_of_pos different, List.takeWhile_cons]
  simp

theorem stateAt_eq {cache : ClusterStateCache} {quotas : QuotaLedger} {before after : List AppPass}
    (turns : pass.planned (pass.prepare cache) = before ++ app :: after)
    : pass.stateAt cache quotas app.appId = before.foldl pass.step (pass.begin cache quotas) := by
  rw [stateAt, takeWhile_turn (nodup_planned pass _) turns]

end Pass

end Reliaburger
