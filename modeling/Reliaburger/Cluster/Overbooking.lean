import Reliaburger.Cluster.Keeping

/-! A pass never allocates more on a node than fits it: every route to a node checks its room,
except that an app returns to its volumes' nodes in one go, so each check is for one replica only.
-/

namespace Reliaburger

open ClusterStateCache

/-- Every committed placement of a desired app asks for what the app requests now. -/
def ScheduledState.AsRequested (desired : ScheduledState) : Prop :=
  ∀ appId spec, desired.apps[appId]? = some spec
    → ∀ placement ∈ desired.placementsOf appId, placement.resources = spec.requests

theorem ScheduledState.asRequested_of_entries {desired : ScheduledState}
    (entries : ∀ entry ∈ desired.apps.toList, ∀ placement ∈ desired.placementsOf entry.1,
      placement.resources = entry.2.requests)
    : desired.AsRequested :=
  fun appId spec found => entries (appId, spec) (BTreeMap.mem_toList.mpr found)

/-- What several replicas request together. -/
def Resources.times (resources : Resources) (count : Nat) : Resources where
  cpuMillicores := resources.cpuMillicores * count
  memoryBytes := resources.memoryBytes * count
  gpus := resources.gpus * count

/-- A node with room for one replica more has room for the rest once that one is reserved. -/
theorem SchedulerNodeState.canFit_reserve {node : SchedulerNodeState} {appId : AppId}
    {request : Resources} {count : Nat} (room : node.canFit (request.times (count + 1)) = true)
    : node.canFit request = true
      ∧ (node.reserve appId request).canFit (request.times count) = true := by
  obtain ⟨cpu, memory, gpus⟩ := Resources.fits_iff.mp room
  simp only [Resources.times, available, Resources.saturatingSub, Nat.mul_succ] at cpu memory gpus
  refine ⟨Resources.fits_iff.mpr ⟨?_, ?_, ?_⟩, Resources.fits_iff.mpr ⟨?_, ?_, ?_⟩⟩
  all_goals
    simp only [Resources.times, available, reserve, Resources.saturatingSub,
      Resources.saturatingAdd, saturatingAdd, saturatingAdd32]
    omega

namespace Pass

variable {pass : Pass} {cache prepared other : ClusterStateCache} {app : AppPass}
  {spec : WorkloadSpec} {appId : AppId} {placement : Placement}

/-- Whether every node has room for all the replicas that an app returns to it. -/
def homesFit (pass : Pass) (cache : ClusterStateCache) (app : AppPass) : Bool :=
  match pass.homesOf cache app.appId app.spec app.want with
  | .placed homes =>
    cache.nodes.toList.all (fun entry =>
      entry.2.canFit (app.spec.requests.times
        (homes.countP (fun home => home.nodeId == entry.1))))
  | .wait _ _ => true

/-- An admitted app that keeps nothing at its turn returns to the nodes of its volumes only where
they have room for all of its replicas. -/
def HomesFit (pass : Pass) (cache : ClusterStateCache) (quotas : QuotaLedger) : Prop :=
  ∀ app ∈ pass.planned (pass.prepare cache),
    let turn := pass.stateAt cache quotas app.appId
    app.replicas ≠ .daemonSet
    → (pass.admitApp turn.quotas app).isOk = true
    → pass.keptOf turn.cache app = []
    → pass.homesFit turn.cache app = true

instance (pass : Pass) (cache : ClusterStateCache) (quotas : QuotaLedger)
    : Decidable (pass.HomesFit cache quotas) :=
  inferInstanceAs (Decidable (∀ _ ∈ _, _ → _ → _ → _))

-- Every route checks the room

/-- What is kept at the requested size needs no resizing. -/
theorem resizeAll_same {requests : Resources} {kept : List Placement}
    (requested : ∀ placement ∈ kept, placement.resources = requests)
    : resizeAll appId requests cache kept = cache := by
  induction kept with
  | nil => rfl
  | cons first rest ih =>
    show resizeAll appId requests (resizeOne appId requests cache first) rest = cache
    rw [resizeOne, if_pos (requested first List.mem_cons_self)]
    exact ih (List.forall_mem_cons.mp requested).2

/-- Nodes that have room for all the replicas that return to them are not overbooked, by induction
on the replicas.
-/
theorem reserveAll_within {resources : Resources} {homes : List Placement}
    (room : ∀ (nodeId : NodeId) (node : SchedulerNodeState), cache.nodes[nodeId]? = some node
      → node.canFit
          (resources.times (homes.countP (fun home => home.nodeId == nodeId))) = true)
    : cache.Within (reserveAll cache appId resources homes) := by
  induction homes generalizing cache with
  | nil => exact .refl _
  | cons first rest ih =>
    have one (node : SchedulerNodeState) (found : cache.nodes[first.nodeId]? = some node) :=
      @SchedulerNodeState.canFit_reserve node appId resources _
        (by simpa using room first.nodeId node found)
    refine (reserve_within fun node found => (one node found).1).trans
      (ih fun nodeId node found => ?_)
    rw [reserve, nodes_update] at found
    split at found
    · rename_i same
      subst same
      obtain ⟨before, foundBefore, rfl⟩ := Option.map_eq_some_iff.mp found
      exact (one before foundBefore).2
    · rename_i different
      have fits := room nodeId node found
      rwa [List.countP_cons_of_neg (by simpa using different)] at fits

section

variable (requested : pass.desired.AsRequested) (planned : pass.Planned prepared app)
include requested planned

theorem keptOf_requested
    : ∀ placement ∈ pass.keptOf cache app, placement.resources = app.spec.requests :=
  fun placement kept => requested app.appId app.spec planned.spec placement
    ((keptOf_subperm planned).subset kept)

theorem fills_within {kept : List Placement} {replicas : Replicas}
    (fit : app.replicas ≠ .daemonSet → pass.keptOf cache app = []
      → pass.homesFit cache app = true)
    (fills : Fills pass cache app other kept replicas)
    : cache.Within other := by
  have same
      : resizeAll app.appId app.spec.requests cache (pass.keptOf cache app) = cache :=
    resizeAll_same (keptOf_requested requested planned)
  cases fills with
  | daemon daemonSet =>
    rw [same]
    exact .refl _
  | keep count fixed some =>
    rw [same]
    exact countKeptReplicas_within _ _ _
  | goHome count fixed none homes found =>
    refine ClusterStateCache.Within.trans (reserveAll_within fun nodeId node isNode => ?_)
      (countKeptReplicas_within _ _ _)
    have room := fit (by rw [fixed]; exact Replicas.noConfusion) none
    rw [homesFit, found] at room
    exact List.all_eq_true.mp room (nodeId, node) (BTreeMap.mem_toList.mpr isNode)

end

/-- No turn of a pass allocates more on a node than fits it or was already allocated. -/
theorem run_within {quotas : QuotaLedger} (requested : pass.desired.AsRequested)
    (fit : pass.HomesFit cache quotas)
    : (pass.prepare cache).Within (pass.finish cache quotas).cache := by
  refine run_turns (P := fun state => (pass.prepare cache).Within state.cache) (.refl _) ?_
  intro before app after turns reached
  refine reached.trans ?_
  have fits := fit app (turns ▸ List.mem_append_right _ List.mem_cons_self)
  have planned := planned_of_turns turns
  rw [stateAt_eq turns] at fits
  have turn := step_turn pass (before.foldl pass.step (pass.begin cache quotas)) app
  generalize pass.step (before.foldl pass.step (pass.begin cache quotas)) app = next at turn
  cases turn with
  | fills pending quotas admitted fills =>
    rw [fill_cache]
    refine (fills_within requested planned (fun fixed none => ?_) fills).trans (added_within _ _ _)
    exact fits fixed (by rw [admitted]; rfl) none
  | _ => exact .refl _

end Pass

/-- A decision puts an ordinal of its app on a node that did not have it. -/
def NewPlacement (desired : ScheduledState) (appId : AppId) (placement : Placement) : Prop :=
  ∀ before ∈ desired.placementsOf appId,
    before.nodeId = placement.nodeId → before.ordinal ≠ placement.ordinal

/-- A ready node that runs containers and nothing more. -/
def containerNode (allocatable allocated : Resources) : SchedulerNodeState where
  allocatable := allocatable
  allocated := allocated
  labels := ∅
  ready := true
  capabilities :=
    { egress := ⟨false, false, false, false, false⟩
      dns := ⟨false, false, false, false, false⟩
      process := ⟨false, []⟩
      containers := true
      secretProviders := []
      runtimeKnobs := {}
      sharedNetwork := false }
  appReplicas := ∅
  uptimeSecs := 0
  cachedImages := ∅

def oneNode (node : SchedulerNodeState) : ClusterStateCache where
  nodes := (∅ : BTreeMap NodeId SchedulerNodeState).insert "n" node

/-- The nodes that are alive; none is suspect, unheard or lapsed. -/
def aliveMembers (names : List NodeId) : PassMembers :=
  ⟨BTreeSet.ofItems names, ∅, ∅, ∅⟩

def webApp : AppId := ⟨"web", "prod"⟩

def onlyWeb (spec : WorkloadSpec) (lastNodes : List NodeId) : ScheduledState where
  apps := (∅ : BTreeMap AppId WorkloadSpec).insert webApp spec
  lastPlacedNodes :=
    if lastNodes.isEmpty then ∅ else (∅ : BTreeMap AppId (List NodeId)).insert webApp lastNodes

def noQuotas : QuotaLedger where
  quotas := ∅

@[simp] theorem onlyWeb_placementsOf (spec : WorkloadSpec) (lastNodes : List NodeId) (appId : AppId)
    : (onlyWeb spec lastNodes).placementsOf appId = [] := by
  simp [onlyWeb, ScheduledState.placementsOf]

theorem onlyWeb_asRequested (spec : WorkloadSpec) (lastNodes : List NodeId)
    : (onlyWeb spec lastNodes).AsRequested := by
  intro appId other _ placement committed
  simp at committed

def cpuOnly : WorkloadSpec where
  cpu := some ⟨1, 1⟩

/-- Two replicas with a managed volume, six millicores each. -/
def twoVolumes : WorkloadSpec where
  replicas := .fixed 2
  cpu := some ⟨6, 6⟩
  volumes := [none]

/-- An app runs on `n` and another, with a volume, returns two replicas to it. -/
def returningTwice : ScheduledState where
  apps := ((∅ : BTreeMap AppId WorkloadSpec).insert ⟨"api", "prod"⟩ { cpu := some ⟨4, 4⟩ }).insert
    webApp { twoVolumes with cpu := some ⟨3, 3⟩ }
  scheduling := (∅ : BTreeMap AppId (List Placement)).insert ⟨"api", "prod"⟩
    [⟨"n", ⟨4, 0, 0⟩, 0⟩]
  lastPlacedNodes := (∅ : BTreeMap AppId (List NodeId)).insert webApp ["n", "n"]

end Reliaburger
