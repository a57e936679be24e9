import Reliaburger.Council.State

/-! The scheduler's view of the cluster and the placement pipeline: filter the nodes a workload can
run on, score them, take the best one and reserve it before the next replica is placed. Resource
arithmetic saturates.
-/

namespace Reliaburger

-- Resources

namespace Resources

def zero : Resources :=
  ⟨0, 0, 0⟩

/-- Whether `self` can satisfy `required`, field by field. -/
def fits (self required : Resources) : Bool :=
  decide (required.cpuMillicores ≤ self.cpuMillicores)
  && decide (required.memoryBytes ≤ self.memoryBytes)
  && decide (required.gpus ≤ self.gpus)

def saturatingSub (self other : Resources) : Resources where
  cpuMillicores := self.cpuMillicores - other.cpuMillicores
  memoryBytes := self.memoryBytes - other.memoryBytes
  gpus := self.gpus - other.gpus

def saturatingAdd (self other : Resources) : Resources where
  cpuMillicores := Reliaburger.saturatingAdd self.cpuMillicores other.cpuMillicores
  memoryBytes := Reliaburger.saturatingAdd self.memoryBytes other.memoryBytes
  gpus := saturatingAdd32 self.gpus other.gpus

end Resources

-- What a node can run

/-- What a node can enforce of egress rules. -/
structure EgressEnforcementCapability where
  connectIpv4 : Bool
  connectIpv6 : Bool
  udpIpv4 : Bool
  udpIpv6 : Bool
  preStart : Bool
deriving DecidableEq, Repr

def EgressEnforcementCapability.canEnforceAllowlist (egress : EgressEnforcementCapability)
    : Bool :=
  egress.connectIpv4 && egress.connectIpv6 && egress.udpIpv4 && egress.udpIpv6 && egress.preStart

/-- What a node's resolver can do for its workloads. -/
structure DnsCapability where
  enabled : Bool
  ready : Bool
  workloadReachable : Bool
  ipv4 : Bool
  ipv6 : Bool
deriving DecidableEq, Repr

def DnsCapability.canResolveInternal (dns : DnsCapability) : Bool :=
  dns.enabled && dns.ready && dns.workloadReachable && (dns.ipv4 || dns.ipv6)

structure ProcessWorkloadCapability where
  enabled : Bool
  allowedBinaries : List String
deriving DecidableEq, Repr

def ProcessWorkloadCapability.runs (process : ProcessWorkloadCapability) (binary : String)
    : Bool :=
  process.enabled && process.allowedBinaries.contains binary

/-- The runtime knobs an app asks for: capabilities, sysctls and host devices, by name. -/
structure RuntimeKnobs where
  capabilities : List String := []
  sysctls : List String := []
  devices : List String := []
deriving DecidableEq, Repr

inductive SysctlPattern where
  | exactly (name : String)
  | under (start : String)
deriving DecidableEq, Repr

def SysctlPattern.matchesName (pattern : SysctlPattern) (name : String) : Bool :=
  match pattern with
  | .exactly expected => name == expected
  | .under start => startsWith name start

/-- The runtime settings that a node lets workloads have. -/
structure RuntimeAllowlist where
  capabilities : List String := []
  sysctls : List SysctlPattern := []
  devices : List String := []
deriving DecidableEq, Repr

def RuntimeAllowlist.admits (allowlist : RuntimeAllowlist) (knobs : RuntimeKnobs) : Bool :=
  knobs.capabilities.all allowlist.capabilities.contains
  && knobs.sysctls.all (fun name =>
    allowlist.sysctls.any (fun pattern => pattern.matchesName name))
  && knobs.devices.all allowlist.devices.contains

/-- What a node reported that it can run. -/
structure NodeCapabilities where
  egress : EgressEnforcementCapability
  dns : DnsCapability
  process : ProcessWorkloadCapability
  containers : Bool
  secretProviders : List String
  runtimeKnobs : RuntimeAllowlist
  sharedNetwork : Bool
deriving DecidableEq, Repr

-- Nodes

/-- A node as the scheduler sees it. -/
structure SchedulerNodeState where
  allocatable : Resources
  allocated : Resources
  labels : BTreeMap String String
  ready : Bool
  capabilities : NodeCapabilities
  /-- How many replicas of each app the node runs. -/
  appReplicas : BTreeMap AppId Nat
  uptimeSecs : Nat
  cachedImages : BTreeSet String
deriving DecidableEq

namespace SchedulerNodeState

variable (node : SchedulerNodeState)

/-- What is left to allocate, nothing where a node is overbooked. -/
def available : Resources :=
  node.allocatable.saturatingSub node.allocated

def canFit (required : Resources) : Bool :=
  node.available.fits required

def matchesLabels (required : BTreeMap String String) : Bool :=
  required.toList.all (fun entry => node.labels[entry.1]? == some entry.2)

/-- How many replicas of an app are counted on the node. -/
def replicasOf (appId : AppId) : Nat :=
  node.appReplicas[appId]?.getD 0

def preferredLabelMatches (preferred : BTreeMap String String) : Nat :=
  preferred.toList.countP (fun entry => node.labels[entry.1]? == some entry.2)

def reserve (appId : AppId) (resources : Resources) : SchedulerNodeState :=
  { node with
    allocated := node.allocated.saturatingAdd resources
    appReplicas := node.appReplicas.insert appId (node.replicasOf appId + 1) }

def release (appId : AppId) (resources : Resources) : SchedulerNodeState :=
  { node with
    allocated := node.allocated.saturatingSub resources
    appReplicas :=
      if node.replicasOf appId ≤ 1 then node.appReplicas.erase appId
      else node.appReplicas.insert appId (node.replicasOf appId - 1) }

def setReplicas (appId : AppId) (count : Nat) : SchedulerNodeState :=
  { node with
    appReplicas :=
      if count = 0 then node.appReplicas.erase appId else node.appReplicas.insert appId count }

end SchedulerNodeState

-- The cache

/-- One replica of an app on one node. -/
structure InstanceKey where
  nodeId : NodeId
  appId : AppId
  ordinal : Nat
deriving DecidableEq, Repr

namespace InstanceKey

def cmp : InstanceKey → InstanceKey → Ordering :=
  compareLex (compareOn nodeId) (compareLex (compareOn appId) (compareOn ordinal))

instance : Ord InstanceKey := ⟨cmp⟩

instance : Std.TransOrd InstanceKey :=
  inferInstanceAs (Std.TransCmp
    (compareLex (compareOn nodeId) (compareLex (compareOn appId) (compareOn ordinal))))

instance : Std.LawfulEqOrd InstanceKey where
  eq_of_compare {first second} same := by
    have fields : (compare first.nodeId second.nodeId).then
        ((compare first.appId second.appId).then
          (compare first.ordinal second.ordinal)) = .eq := same
    simp only [Ordering.then_eq_eq, Std.compare_eq_iff_eq] at fields
    cases first
    cases second
    simp_all

end InstanceKey

/-- The nodes of one scheduling pass, and the replicas that they refused. -/
structure ClusterStateCache where
  nodes : BTreeMap NodeId SchedulerNodeState
  /-- What is already counted in a node's allocated total for each instance. -/
  accountedInstances : BTreeMap InstanceKey Resources := ∅
  /-- The replicas nodes reported they couldn't start. -/
  capacityRefusals : BTreeSet InstanceKey := ∅
deriving DecidableEq

namespace ClusterStateCache

variable (cache : ClusterStateCache) (nodeId : NodeId) (appId : AppId)

/-- Whether the node refused the replica for want of room. -/
def capacityRefused (ordinal : Nat) : Bool :=
  cache.capacityRefusals.contains ⟨nodeId, appId, ordinal⟩

def update (change : SchedulerNodeState → SchedulerNodeState) : ClusterStateCache :=
  match cache.nodes[nodeId]? with
  | some node => { cache with nodes := cache.nodes.insert nodeId (change node) }
  | none => cache

def reserve (resources : Resources) : ClusterStateCache :=
  cache.update nodeId (fun node => node.reserve appId resources)

def release (resources : Resources) : ClusterStateCache :=
  cache.update nodeId (fun node => node.release appId resources)

/-- Say how many replicas of an app a node runs, whatever its report said. -/
def setReplicas (count : Nat) : ClusterStateCache :=
  cache.update nodeId (fun node => node.setReplicas appId count)

/-- Add only the unreported part of a committed instance's request. -/
def reserveCommittedInstance (ordinal : Nat) (request : Resources) : ClusterStateCache :=
  match cache.nodes[nodeId]? with
  | none => cache
  | some node =>
    let key : InstanceKey := ⟨nodeId, appId, ordinal⟩
    let previous := cache.accountedInstances[key]?
    let accounted := previous.getD .zero
    let missing := request.saturatingSub accounted
    let counted :=
      { node with
        allocated := node.allocated.saturatingAdd missing
        appReplicas :=
          if previous.isNone then node.appReplicas.insert appId (node.replicasOf appId + 1)
          else node.appReplicas }
    { cache with
      nodes := cache.nodes.insert nodeId counted
      accountedInstances :=
        cache.accountedInstances.insert key (accounted.saturatingAdd missing) }

end ClusterStateCache

-- What a workload asks for

structure PlacementSpec where
  required : List String := []
  preferred : List String := []
deriving DecidableEq, Repr

structure InitDemand where
  image : Option String := none
  command : List String := []
  providers : List String := []
deriving DecidableEq, Repr

structure SidecarDemand where
  cpu : Option ResourceRange := none
  memory : Option ResourceRange := none
  providers : List String := []
deriving DecidableEq, Repr

/-- What the scheduler reads of an app's spec. `volumes` has the source of each volume; one without
a source is managed. `providers` are the secret providers its environment names. -/
structure WorkloadSpec where
  image : Option String := none
  exec : Option String := none
  script : Option String := none
  replicas : Replicas := .fixed 1
  cpu : Option ResourceRange := none
  memory : Option ResourceRange := none
  gpu : Option Nat := none
  placement : Option PlacementSpec := none
  volumes : List (Option String) := []
  init : List InitDemand := []
  sidecar : List SidecarDemand := []
  preStop : List String := []
  providers : List String := []
  runtime : Option RuntimeKnobs := none
  egressAllow : List String := []
  allowFrom : List String := []
deriving DecidableEq, Repr

/-- The parts of a `key=value` text, split at the first `=`. -/
def splitLabel (text : String) : Option (String × String) :=
  let chars := text.toList
  match chars.dropWhile (· != '=') with
  | _ :: value => some (String.ofList (chars.takeWhile (· != '=')), String.ofList value)
  | [] => none

def parseLabelList (labels : List String) : BTreeMap String String :=
  (labels.filterMap splitLabel).foldl (fun map entry => map.insert entry.1 entry.2) ∅

def scriptInterpreter : String := "/bin/sh"

namespace WorkloadSpec

variable (spec : WorkloadSpec)

/-- What one replica of an app asks for; nothing of what it doesn't name. -/
def requests : Resources where
  cpuMillicores := (spec.sidecar.map (fun sidecar => (sidecar.cpu.map (·.request)).getD 0)).foldl
    saturatingAdd ((spec.cpu.map (·.request)).getD 0)
  memoryBytes := (spec.sidecar.map (fun sidecar => (sidecar.memory.map (·.request)).getD 0)).foldl
    saturatingAdd ((spec.memory.map (·.request)).getD 0)
  gpus := spec.gpu.getD 0

def requiredLabels : BTreeMap String String :=
  parseLabelList ((spec.placement.map (·.required)).getD [])

def preferredLabels : BTreeMap String String :=
  parseLabelList ((spec.placement.map (·.preferred)).getD [])

/-- A fixed-size app that keeps state in a volume on the node it runs on. -/
def hasManagedVolume : Bool :=
  (match spec.replicas with
    | .fixed _ => true
    | .daemonSet => false)
  && spec.volumes.any Option.isNone

def hostBinary : Option String :=
  spec.exec.or (spec.script.map (fun _ => scriptInterpreter))

def hostInitBinaries : List String :=
  if spec.hostBinary.isSome then
    (spec.init.filter (fun init => init.image.isNone)).filterMap (fun init => init.command.head?)
  else []

def hostPreStopBinary : Option String :=
  if spec.hostBinary.isSome then spec.preStop.head? else none

end WorkloadSpec

/-- The hard constraints a workload puts on the node it runs on. -/
structure WorkloadRequirements where
  resources : Resources
  labels : BTreeMap String String
  requiresEgress : Bool
  requiresDns : Bool
  hostBinaries : List String
  requiresContainers : Bool
  secretProviders : List String
  runtimeKnobs : RuntimeKnobs
  requiresSharedNetwork : Bool

/-- What an app asks of every node that is to run it. -/
def WorkloadRequirements.forApp (spec : WorkloadSpec) (requiresDns : Bool)
    : WorkloadRequirements where
  resources := spec.requests
  labels := spec.requiredLabels
  requiresEgress := !spec.egressAllow.isEmpty || !spec.allowFrom.isEmpty
  requiresDns := requiresDns
  hostBinaries := spec.hostBinary.toList ++ spec.hostInitBinaries ++ spec.hostPreStopBinary.toList
  requiresContainers :=
    (spec.exec.isNone && spec.script.isNone) || spec.init.any (fun init => init.image.isSome)
  secretProviders := spec.providers ++ spec.init.flatMap (·.providers)
    ++ spec.sidecar.flatMap (·.providers)
  runtimeKnobs := spec.runtime.getD {}
  requiresSharedNetwork := !spec.sidecar.isEmpty

-- Filter

variable (node : SchedulerNodeState)

def runsItsKind (requirements : WorkloadRequirements) : Bool :=
  !requirements.requiresContainers || node.capabilities.containers

/-- Whether a node can run a workload, room and labels aside. -/
def nodeCanRun (requirements : WorkloadRequirements) : Bool :=
  node.ready
  && runsItsKind node requirements
  && (!requirements.requiresSharedNetwork || node.capabilities.sharedNetwork)
  && (!requirements.requiresEgress || node.capabilities.egress.canEnforceAllowlist)
  && (!requirements.requiresDns || node.capabilities.dns.canResolveInternal)
  && requirements.hostBinaries.all node.capabilities.process.runs
  && requirements.secretProviders.all node.capabilities.secretProviders.contains
  && node.capabilities.runtimeKnobs.admits requirements.runtimeKnobs

/-- The hard filter: a node can run the app, has its labels and has room. -/
def passesFilter (requirements : WorkloadRequirements) (node : SchedulerNodeState) : Bool :=
  nodeCanRun node requirements && node.matchesLabels requirements.labels
  && node.canFit requirements.resources

/-- The nodes that pass the hard filter, in the order of their names. -/
def filterNodes (requirements : WorkloadRequirements) (cluster : ClusterStateCache)
    : List NodeId :=
  (cluster.nodes.toList.filter (fun entry => passesFilter requirements entry.2)).map Prod.fst

/-- Why the scheduler couldn't place a replica. -/
inductive UnplacedReason where
  | noReadyNode
  | noLabelMatch
  | noContainerRuntime
  | noCapableNode
  | noRoom
deriving DecidableEq, Repr

/-- Why no node passes: the first filter that leaves none. -/
def unplacedReason (requirements : WorkloadRequirements) (cluster : ClusterStateCache)
    : UnplacedReason :=
  let ready := cluster.nodes.valueList.filter (·.ready)
  if ready.isEmpty then .noReadyNode
  else
    let labelled := ready.filter (fun node => node.matchesLabels requirements.labels)
    if labelled.isEmpty then .noLabelMatch
    else if !labelled.any (fun node => runsItsKind node requirements) then .noContainerRuntime
    else if !labelled.any (fun node => nodeCanRun node requirements) then .noCapableNode
    else .noRoom

-- Score

/-- How full a resource is once a request joins, as a percentage; nothing for a node without it. -/
def utilisationAfter (allocated request allocatable : Nat) : Option Nat :=
  if allocatable = 0 then none
  else some (min (saturatingMul (saturatingAdd allocated request) 100 / allocatable) 100)

/-- Prefer the node that is fuller in both CPU and memory, evenly. -/
def binPackingScore (resources : Resources) : Nat :=
  let cpu := utilisationAfter node.allocated.cpuMillicores resources.cpuMillicores
    node.allocatable.cpuMillicores
  let memory := utilisationAfter node.allocated.memoryBytes resources.memoryBytes
    node.allocatable.memoryBytes
  match cpu, memory with
  | some cpu, some memory => (cpu + memory) / 2 - (max cpu memory - min cpu memory) / 10
  | some only, none | none, some only => only
  | none, none => 50

/-- The score of a node: how full it gets, preferred labels, the image at hand and its uptime. -/
def computeScore (resources : Resources) (preferred : BTreeMap String String)
    (image : Option String)
    : Nat :=
  let preferredShare :=
    if preferred.isEmpty then 100 else node.preferredLabelMatches preferred * 100 / preferred.size
  let stability := min node.uptimeSecs 86400 * 100 / 86400
  let imageLocality := if image.any node.cachedImages.contains then 100 else 0
  (binPackingScore node resources * 50 + preferredShare * 20 + imageLocality * 15
    + stability * 5) / 100

structure ScoredNode where
  nodeId : NodeId
  replicas : Nat
  score : Nat
deriving DecidableEq, Repr

/-- Fewest replicas first, then the highest score, then the lowest name. -/
def ScoredNode.before (left right : ScoredNode) : Bool :=
  (compare left.replicas right.replicas
    |>.then (compare right.score left.score)
    |>.then (compare left.nodeId right.nodeId)).isLE

/-- The candidates in the order of preference. -/
def scoreNodes (candidates : List NodeId) (appId : AppId) (resources : Resources)
    (preferred : BTreeMap String String) (cluster : ClusterStateCache) (image : Option String)
    : List ScoredNode :=
  (candidates.filterMap (fun nodeId =>
    cluster.nodes[nodeId]?.map (fun node =>
      { nodeId
        replicas := node.replicasOf appId
        score := computeScore node resources preferred image }))).insertionSort
    (fun left right : ScoredNode => left.before right)

-- Placing an app

structure Unplaced where
  missing : Nat
  reason : UnplacedReason
deriving DecidableEq, Repr

/-- The replicas that found a node, reserved in the cache, and those that found none. -/
structure Placed where
  cluster : ClusterStateCache
  placements : List Placement
  unplaced : Option Unplaced

/-- The best node for one more replica. -/
def selectNode (appId : AppId) (requirements : WorkloadRequirements)
    (preferred : BTreeMap String String) (image : Option String) (cluster : ClusterStateCache)
    : Option NodeId :=
  (scoreNodes (filterNodes requirements cluster) appId requirements.resources preferred cluster
    image).head?.map (·.nodeId)

/-- Place `count` more replicas from an ordinal on, until one finds no node. -/
def scheduleFrom (appId : AppId) (requirements : WorkloadRequirements)
    (preferred : BTreeMap String String) (image : Option String)
    : Nat → Nat → ClusterStateCache → Placed
  | _, 0, cluster => ⟨cluster, [], none⟩
  | ordinal, count + 1, cluster =>
    match selectNode appId requirements preferred image cluster with
    | none => ⟨cluster, [], some ⟨count + 1, unplacedReason requirements cluster⟩⟩
    | some nodeId =>
      let rest := scheduleFrom appId requirements preferred image (ordinal + 1) count
        (cluster.reserve nodeId appId requirements.resources)
      { rest with placements := ⟨nodeId, requirements.resources, ordinal⟩ :: rest.placements }

/-- Place the replicas of an app one by one. -/
def scheduleFixed (appId : AppId) (replicaCount : Nat) (requirements : WorkloadRequirements)
    (preferred : BTreeMap String String) (image : Option String) (cluster : ClusterStateCache)
    : Placed :=
  scheduleFrom appId requirements preferred image 0 replicaCount cluster

/-- Give back the room of a node's committed copy, if it runs one. -/
def creditCopy (appId : AppId) (credit : BTreeMap NodeId Resources) (cluster : ClusterStateCache)
    (nodeId : NodeId)
    : ClusterStateCache :=
  if cluster.nodes[nodeId]?.any (fun node => decide (0 < node.replicasOf appId)) then
    match credit[nodeId]? with
    | some committed => cluster.release nodeId appId committed
    | none => cluster
  else cluster

/-- The nodes a daemon set can run on, crediting back each node's committed copy. -/
def daemonCandidates (cluster : ClusterStateCache) (appId : AppId)
    (credit : BTreeMap NodeId Resources) (requirements : WorkloadRequirements)
    : List NodeId :=
  filterNodes requirements (cluster.nodes.keys.foldl (creditCopy appId credit) cluster)

/-- Replace or start the copy on one node of a daemon set. -/
def placeCopy (appId : AppId) (credit : BTreeMap NodeId Resources)
    (requirements : WorkloadRequirements) (cluster : ClusterStateCache) (nodeId : NodeId)
    : ClusterStateCache :=
  (creditCopy appId credit cluster nodeId).reserve nodeId appId requirements.resources

/-- Place or replace one copy on every candidate. -/
def scheduleDaemon (appId : AppId) (credit : BTreeMap NodeId Resources)
    (requirements : WorkloadRequirements) (cluster : ClusterStateCache)
    : Placed :=
  let candidates := daemonCandidates cluster appId credit requirements
  { cluster := candidates.foldl (placeCopy appId credit requirements) cluster
    placements := candidates.mapIdx (fun ordinal nodeId =>
      ⟨nodeId, requirements.resources, ordinal⟩)
    unplaced := none }

/-- Place what an app lacks. -/
def placeApp (appId : AppId) (spec : WorkloadSpec) (replicas : Replicas) (dnsRequired : Bool)
    (credit : BTreeMap NodeId Resources) (cluster : ClusterStateCache)
    : Placed :=
  let requirements := WorkloadRequirements.forApp spec dnsRequired
  match replicas with
  | .fixed count =>
    scheduleFixed appId count requirements spec.preferredLabels spec.image cluster
  | .daemonSet => scheduleDaemon appId credit requirements cluster

end Reliaburger
