import Reliaburger.Job.Cron
import Reliaburger.Registry.Catalog
import Reliaburger.Library.Checks

/-! Service discovery as the council keeps it: the published catalogue, what its consumers still
owe, who the consumers are, and the executions that are retired for good.
-/

namespace Reliaburger

open Checks

abbrev Ipv4Addr : Type := Nat

abbrev VirtualIP : Type := Ipv4Addr

-- Service names

def splitOnceText (separator : List Char) : List Char → Option (List Char × List Char)
  | [] => if separator.isEmpty then some ([], []) else none
  | char :: rest =>
    if separator.isPrefixOf (char :: rest) then
      some ([], (char :: rest).drop separator.length)
    else (splitOnceText separator rest).map (fun parts => (char :: parts.1, parts.2))

def namespaceSeparator : String := "__"

structure ServiceId where
  ns : String
  name : String
deriving DecidableEq, Repr

namespace ServiceId

def qualified (id : ServiceId) : String :=
  id.ns ++ namespaceSeparator ++ id.name

def parse (qualified : String) : Option ServiceId :=
  match splitOnceText namespaceSeparator.toList qualified.toList with
  | none => none
  | some (ns, name) =>
    if ns.isEmpty || name.isEmpty then none
    else some ⟨String.ofList ns, String.ofList name⟩

end ServiceId

/-- Whether both parts of a service's name are workload labels. -/
def ServiceId.labelled (id : ServiceId) : Bool :=
  validWorkloadLabel id.ns && validWorkloadLabel id.name

-- The catalogue

/-- The fingerprint of one runtime execution: 64 lowercase hexadecimal digits. -/
structure RuntimeGeneration where
  text : String
  valid : text.utf8ByteSize = 64
    ∧ text.toList.all (fun char =>
        ('0' ≤ char && char ≤ '9') || ('a' ≤ char && char ≤ 'f')) = true
deriving DecidableEq

structure RuntimeExecution where
  instanceId : String
  generation : RuntimeGeneration
deriving DecidableEq

/-- One instance that serves traffic, and where. -/
structure CatalogBackend where
  /-- Known once there is durable evidence of the execution. -/
  execution : Option RuntimeExecution := none
  nodeId : String
  nodeIp : Ipv4Addr
  hostPort : Nat
  healthy : Bool
deriving DecidableEq

/-- A service with its virtual address and its backends. -/
structure CatalogService where
  vip : VirtualIP
  port : Nat
  backends : List CatalogBackend
deriving DecidableEq

/-- The services that the cluster publishes. -/
structure EndpointCatalog where
  services : BTreeMap String CatalogService := ∅
deriving DecidableEq

inductive OnionError where
  | invalidSnapshot (service reason : String)
  | alreadyRegistered (name : String)
  | vipSpaceExhausted (name : String)
deriving DecidableEq, Repr

/-- The first and last usable virtual addresses: `127.128.0.1` and `127.128.255.254`. -/
def firstVip : VirtualIP := 0x7f800001

def lastVip : VirtualIP := 0x7f80fffe

namespace EndpointCatalog

-- Allocations

/-- A service has a readable name, a port and a usable address. -/
def validService (qualified : String) (service : CatalogService) : Bool :=
  (ServiceId.parse qualified).any ServiceId.labelled
    && service.port != 0
    && firstVip ≤ service.vip && service.vip ≤ lastVip

def checkAllocations
    : List (String × CatalogService) → List VirtualIP → Except OnionError Unit
  | [], _ => .ok ()
  | (qualified, service) :: rest, originalVips =>
    if !validService qualified service || originalVips.contains service.vip then
      .error (.invalidSnapshot qualified "invalid or conflicting catalogue allocation")
    else checkAllocations rest (service.vip :: originalVips)

/-- Refuse an invalid service, and two that share an address. -/
def validateAllocations (catalog : EndpointCatalog) : Except OnionError Unit :=
  checkAllocations catalog.services.toList []

end EndpointCatalog

-- A node's service map

def Ipv4Addr.text (address : Ipv4Addr) : String :=
  let octet (index : Nat) := toString (address / 256 ^ index % 256)
  octet 3 ++ "." ++ octet 2 ++ "." ++ octet 1 ++ "." ++ octet 0

structure BackendInstance where
  instanceId : String
  nodeIp : Ipv4Addr
  hostPort : Nat
  healthy : Bool
  /-- Whether the node's own agent runs the backend. -/
  local_ : Bool := false
deriving DecidableEq

/-- A service in the map of one node. -/
structure ServiceEntry where
  appName : String
  ns : String
  namespaceId : Nat
  /-- The allocated address, as a number. -/
  appId : Nat
  vip : VirtualIP
  port : Nat
  backends : List BackendInstance
  firewallAllowFrom : Option (List String) := none
deriving DecidableEq

/-- Services by qualified name, and the addresses in use. -/
structure ServiceMap where
  entries : BTreeMap String ServiceEntry := ∅
  allocatedVips : BTreeSet VirtualIP := ∅

/-- The executions of one node and port are told apart; without evidence of the execution, the
endpoint itself is the name. -/
def catalogInstanceId (backend : CatalogBackend) : String :=
  let endpoint := backend.nodeId ++ ":" ++ Ipv4Addr.text backend.nodeIp ++ ":"
    ++ toString backend.hostPort
  match backend.execution with
  | some execution => endpoint ++ ":" ++ execution.generation.text
  | none => endpoint

/-- A catalogue's backend as other nodes reach it. -/
def CatalogBackend.asInstance (backend : CatalogBackend) : BackendInstance where
  instanceId := catalogInstanceId backend
  nodeIp := backend.nodeIp
  hostPort := backend.hostPort
  healthy := backend.healthy

namespace ServiceMap

/-- A backend has a name that no other of the service has, a port and an address. -/
def checkBackends (refusal : OnionError) : List BackendInstance → BTreeSet String
    → Except OnionError Unit
  | [], _ => .ok ()
  | backend :: rest, backendIds =>
    if backend.instanceId.isEmpty || backend.hostPort == 0 || backend.nodeIp == 0
        || backendIds.contains backend.instanceId then
      .error refusal
    else checkBackends refusal rest (backendIds.insert backend.instanceId)

/-- A saved entry is as the map would have allocated it; `nameToId` is a hash of the name. -/
def validEntry (nameToId : String → Nat) (entry : ServiceEntry) : Bool :=
  validWorkloadLabel entry.ns && validWorkloadLabel entry.appName
    && entry.namespaceId == nameToId entry.ns
    && entry.appId == entry.vip
    && firstVip ≤ entry.vip && entry.vip ≤ lastVip
    && entry.port != 0

def restore (nameToId : String → Nat) (map : ServiceMap) (entry : ServiceEntry)
    : Except OnionError ServiceMap := do
  let key := ServiceId.qualified ⟨entry.ns, entry.appName⟩
  refuseIf (¬ validEntry nameToId entry = true)
    (.invalidSnapshot key "invalid service identity or allocation")
  refuseIf (key ∈ map.entries ∨ entry.vip ∈ map.allocatedVips)
    (.invalidSnapshot key "duplicate service or virtual IP owner")
  checkBackends (.invalidSnapshot key "invalid or duplicate backend") entry.backends ∅
  pure { entries := map.entries.insert key entry
         allocatedVips := map.allocatedVips.insert entry.vip }

/-- Restore exactly what was saved, or nothing. -/
def fromSnapshot (nameToId : String → Nat) (entries : List ServiceEntry)
    : Except OnionError ServiceMap :=
  entries.foldlM (restore nameToId) {}

/-- The entry of a service. -/
def resolve (map : ServiceMap) (id : ServiceId) : Option ServiceEntry :=
  map.entries[id.qualified]?

def resolveAll (map : ServiceMap) : List ServiceEntry :=
  map.entries.valueList

def addBackends (entry : ServiceEntry) (backends : List CatalogBackend) : ServiceEntry :=
  backends.foldl (fun entry backend =>
    if entry.backends.any (fun present => present.instanceId == catalogInstanceId backend) then
      entry
    else { entry with backends := entry.backends ++ [backend.asInstance] }) entry

/-- Merge one published service into the map of a node. -/
def mergeService (nameToId : String → Nat) (localNode : Option String) (map : ServiceMap)
    (row : String × CatalogService)
    : ServiceMap :=
  let remote := row.2.backends.filter (fun backend => some backend.nodeId != localNode)
  match map.entries[row.1]? with
  | some entry => { map with entries := map.entries.insert row.1 (addBackends entry remote) }
  | none =>
    match ServiceId.parse row.1 with
    | none => map
    | some id =>
      let entry : ServiceEntry := {
        appName := id.name
        ns := id.ns
        namespaceId := nameToId id.ns
        appId := row.2.vip
        vip := row.2.vip
        port := row.2.port
        backends := remote.map CatalogBackend.asInstance }
      { entries := map.entries.insert row.1 entry
        allocatedVips := map.allocatedVips.insert row.2.vip }

/-- The map of a node with everything published but its own backends. -/
def withClusterCatalogExcludingNode (nameToId : String → Nat) (map : ServiceMap)
    (catalog : EndpointCatalog) (localNode : Option String)
    : ServiceMap :=
  catalog.services.toList.foldl (mergeService nameToId localNode) map

end ServiceMap

def maxWithdrawalGenerations : Nat := 1024

def maxWithdrawalExposures : Nat := 65536

def maxWithdrawalConfirmations : Nat := 262144

/-- The backends a service lost, and whether it lost its address too. -/
structure ServiceWithdrawal where
  service : CatalogService
  retireVip : Bool
deriving DecidableEq

/-- The services a publication took routes from, and who must still confirm. -/
structure EndpointWithdrawal where
  services : BTreeMap String ServiceWithdrawal
  consumers : BTreeSet String

/-- The generation of the active catalogue and the withdrawals not yet confirmed, by the
generation they replaced. -/
structure EndpointWithdrawals where
  generation : Nat := 0
  pending : BTreeMap Nat EndpointWithdrawal := ∅

inductive WithdrawalError where
  | generationExhausted
  | capacityReached
  | generationConflict
  | invalidCatalogue (error : OnionError)
  | retiredVipInUse (vip : VirtualIP)
deriving DecidableEq, Repr

-- Routes taken away

/-- Whether two backends listen at one address of one node. -/
def sameAddress (backend other : CatalogBackend) : Bool :=
  backend.nodeId == other.nodeId && backend.nodeIp == other.nodeIp
    && backend.hostPort == other.hostPort

/-- Whether a service still has a backend's address under the same execution. -/
def retains (service : CatalogService) (backend : CatalogBackend) : Bool :=
  service.backends.any (fun candidate =>
    sameAddress candidate backend && candidate.execution == backend.execution)

/-- Whether a backend without an execution only learned which one it has. -/
def refines (service : CatalogService) (backend : CatalogBackend) : Bool :=
  backend.execution.isNone && service.backends.any (fun candidate => sameAddress candidate backend)

def removedExposure (next : EndpointCatalog) (id : String) (original : CatalogService)
    : Option ServiceWithdrawal :=
  let replacement := next.services[id]?
  let retireVip := replacement.all (fun service => service.vip != original.vip)
  let sameRoute := replacement.filter (fun service =>
    service.vip == original.vip && service.port == original.port)
  -- Health and order are not part of a route.
  let backends := match sameRoute with
    | none => original.backends
    | some service =>
      original.backends.filter (fun backend =>
        !retains service backend && !refines service backend)
  if sameRoute.isSome && backends.isEmpty then none
  else some ⟨{ vip := original.vip, port := original.port, backends }, retireVip⟩

/-- What a new catalogue takes away from the old one. -/
def removedExposures (previous next : EndpointCatalog) : BTreeMap String ServiceWithdrawal :=
  previous.services.filterMap (removedExposure next)

/-- A withdrawal that one consumer no longer owes; nothing when it was the last. -/
def EndpointWithdrawal.without (withdrawal : EndpointWithdrawal) (nodeId : String)
    : Option EndpointWithdrawal :=
  let consumers := withdrawal.consumers.erase nodeId
  if consumers.isEmpty then none else some { withdrawal with consumers }

namespace EndpointWithdrawals

variable (ledger : EndpointWithdrawals)

/-- Addresses that stay taken until every consumer has confirmed. -/
def reservedVips : List VirtualIP :=
  ledger.pending.valueList.flatMap (fun withdrawal =>
    (withdrawal.services.valueList.filter (·.retireVip)).map (·.service.vip))

/-- Refuse an address that a withdrawal still holds. -/
def checkReservations (next : EndpointCatalog) : Except WithdrawalError Unit :=
  Checks.checkAll
    (fun service => Checks.refuseIf (service.vip ∈ ledger.reservedVips)
      (.retiredVipInUse service.vip))
    next.services.valueList

/-- The number of exposures and of outstanding confirmations. -/
def usage : Nat × Nat :=
  ((ledger.pending.valueList.map (fun withdrawal =>
      (withdrawal.services.valueList.map (fun removed =>
        1 + removed.service.backends.length)).sum)).sum,
    (ledger.pending.valueList.map (fun withdrawal => withdrawal.consumers.size)).sum)

/-- Refuse more withdrawals than the ledger may hold. -/
def checkCapacity : Except WithdrawalError Unit :=
  Checks.refuseIf
    (ledger.pending.size > maxWithdrawalGenerations
      ∨ ledger.usage.1 > maxWithdrawalExposures
      ∨ ledger.usage.2 > maxWithdrawalConfirmations)
    .capacityReached

/-- The ledger with what a publication takes away, owed by every consumer. -/
def owing (previous next : EndpointCatalog) (consumers : BTreeSet String) : EndpointWithdrawals :=
  if consumers.isEmpty then ledger
  else
    let services := removedExposures previous next
    if services.isEmpty then ledger
    else { ledger with pending := ledger.pending.insert ledger.generation ⟨services, consumers⟩ }

/-- The ledger after a publication, or why it must not go ahead. -/
def planPublication (previous next : EndpointCatalog) (consumers : BTreeSet String)
    : Except WithdrawalError EndpointWithdrawals := do
  previous.validateAllocations.mapError .invalidCatalogue
  next.validateAllocations.mapError .invalidCatalogue
  ledger.checkReservations next
  Checks.refuseIf (∃ generation ∈ ledger.pending.keys, generation ≥ ledger.generation)
    .generationConflict
  if previous = next then pure ledger
  else
    Checks.refuseIf (ledger.generation + 1 ≥ u64Size) .generationExhausted
    let planned := ledger.owing previous next consumers
    planned.checkCapacity
    -- This also protects the addresses that this very publication retires.
    planned.checkReservations next
    pure { planned with generation := ledger.generation + 1 }

/-- Discharge everything a fenced consumer owes. -/
def retireConsumer (nodeId : String) : EndpointWithdrawals :=
  { ledger with
    pending := ledger.pending.filterMap (fun _ withdrawal =>
      withdrawal.without nodeId) }

/-- A node confirms a withdrawal; the last one that has to ends it. -/
def acknowledge (nodeId : String) (generation : Nat) : EndpointWithdrawals :=
  match ledger.pending[generation]? with
  | none => ledger
  | some withdrawal =>
    { ledger with
      pending := match withdrawal.without nodeId with
        | some left => ledger.pending.insert generation left
        | none => ledger.pending.erase generation }

end EndpointWithdrawals

-- Retired executions

def maxProducerRetirements : Nat := 65536

/-- The parts of a runtime instance's canonical name. -/
structure InstanceIdentity where
  ns : String
  app : String
  /-- The deployment generation of a canary. -/
  generation : Option Nat
  ordinal : Nat
deriving DecidableEq, Repr

namespace InstanceIdentity

def appSuffix (identity : InstanceIdentity) : String :=
  match identity.generation with
  | some generation =>
    identity.app ++ "-g" ++ toString generation ++ "-" ++ toString identity.ordinal
  | none => identity.app ++ "-" ++ toString identity.ordinal

def instanceId (identity : InstanceIdentity) : String :=
  identity.ns ++ namespaceSeparator ++ identity.appSuffix

/-- The canary form of a name's head: `app-g` and a generation. -/
def parseCanary (head : List Char) : Option (List Char × Nat) := do
  let (app, genPart) ← rsplitOnce '-' head
  match genPart with
  | 'g' :: digits => (parseUnsigned (u64Size - 1) digits).map (fun generation => (app, generation))
  | _ => none

def parseSuffix (suffix ns : List Char) : Option InstanceIdentity := do
  let (head, ordinalPart) ← rsplitOnce '-' suffix
  let ordinal ← parseUnsigned (2 ^ 32 - 1) ordinalPart
  match parseCanary head with
  | some (app, generation) =>
    some ⟨String.ofList ns, String.ofList app, some generation, ordinal⟩
  | none => some ⟨String.ofList ns, String.ofList head, none, ordinal⟩

def parse (id : String) : Option InstanceIdentity := do
  let (ns, suffix) ← splitOnceText namespaceSeparator.toList id.toList
  parseSuffix suffix ns

end InstanceIdentity

def validateNodeId (nodeId : String) : Except String Unit :=
  if nodeId.isEmpty || nodeId.utf8ByteSize > 256 || nodeId.toList.any isControl then
    .error "node identity must contain 1 to 256 printable bytes"
  else .ok ()

inductive ProducerRetirementError where
  | invalidNode (reason : String)
  | invalidExecution
  | generationConflict
  | capacity
deriving DecidableEq, Repr

/-- The retired executions of each node: instance by generation. They are never forgotten. -/
structure ProducerRetirements where
  executions : BTreeMap String (BTreeMap String String) := ∅

namespace ProducerRetirements

/-- Whether an execution's name is the canonical name of a workload. -/
def canonical (execution : RuntimeExecution) : Bool :=
  (InstanceIdentity.parse execution.instanceId).any (fun identity =>
    identity.instanceId == execution.instanceId
      && validWorkloadLabel identity.ns && validWorkloadLabel identity.app)

variable (retirements : ProducerRetirements)

def fenced (nodeId : String) (generation : RuntimeGeneration) : Option String :=
  retirements.executions[nodeId]?.bind (fun entries => entries[generation.text]?)

/-- Record an execution as retired on its node; once is enough. -/
def planRetirement (nodeId : String) (execution : RuntimeExecution)
    : Except ProducerRetirementError ProducerRetirements := do
  (validateNodeId nodeId).mapError .invalidNode
  Checks.refuseIf (canonical execution = false) .invalidExecution
  match retirements.fenced nodeId execution.generation with
  | some original =>
    if original = execution.instanceId then pure retirements else throw .generationConflict
  | none =>
    Checks.refuseIf
      ((retirements.executions.valueList.map (·.size)).sum ≥ maxProducerRetirements) .capacity
    let entries := retirements.executions[nodeId]?.getD ∅
    pure { executions := retirements.executions.insert nodeId
            (entries.insert execution.generation.text execution.instanceId) }

/-- Whether the execution was retired on the node. -/
def fences (nodeId : String) (execution : RuntimeExecution) : Bool :=
  retirements.fenced nodeId execution.generation == some execution.instanceId

/-- Whether a backend may not be published: its generation is retired, or it has none on a node
that retired one. -/
def blocks (nodeId : String) (execution : Option RuntimeExecution) : Bool :=
  match retirements.executions[nodeId]? with
  | none => false
  | some entries => execution.all (fun execution => entries.contains execution.generation.text)

/-- The catalogue without the blocked backends; services keep their addresses. -/
def withdraw (catalog : EndpointCatalog) : EndpointCatalog :=
  { services := catalog.services.map (fun _ service =>
      { service with
        backends := service.backends.filter (fun backend =>
          !retirements.blocks backend.nodeId backend.execution) }) }

/-- Whether a withdrawn backend may be a given execution of a node. -/
def concerns (nodeId : String) (execution : RuntimeExecution) (backend : CatalogBackend) : Bool :=
  backend.nodeId == nodeId
    && backend.execution.all (fun original => original.generation == execution.generation)

/-- A retired execution may be released once no consumer owes a confirmation for it. -/
def releaseConfirmed (nodeId : String) (execution : RuntimeExecution)
    (withdrawals : EndpointWithdrawals)
    : Bool :=
  retirements.fences nodeId execution
    && !withdrawals.pending.valueList.any (fun withdrawal =>
      !withdrawal.consumers.isEmpty
        && withdrawal.services.valueList.any (fun removed =>
          removed.service.backends.any (concerns nodeId execution)))

end ProducerRetirements

-- The state of discovery

def maxEndpointConsumers : Nat := 65536

inductive EndpointRefusal where
  | because (reason : String)
  | withdrawal (error : WithdrawalError)
  | producer (error : ProducerRetirementError)
deriving DecidableEq, Repr

/-- What the council keeps of service discovery. -/
structure Endpoints where
  catalog : EndpointCatalog := {}
  withdrawals : EndpointWithdrawals := {}
  consumers : BTreeSet String := ∅
  producers : ProducerRetirements := {}

namespace EndpointCatalog

def anyBackend (catalog : EndpointCatalog) (p : CatalogBackend → Bool) : Bool :=
  catalog.services.valueList.any (fun service => service.backends.any p)

/-- The catalogue without the backends of a node. -/
def withoutNode (catalog : EndpointCatalog) (nodeId : String) : EndpointCatalog :=
  { services := catalog.services.map (fun _ service =>
      { service with
        backends := service.backends.filter (fun backend => backend.nodeId != nodeId) }) }

end EndpointCatalog

namespace Endpoints

def retiredReason : String :=
  "node identity is retired; fresh enrolment is required"

variable (endpoints : Endpoints)

/-- Take a node among those that must confirm withdrawals. -/
def registerConsumer (isRetired : String → Bool) (nodeId : String)
    : Except EndpointRefusal Endpoints := do
  (validateNodeId nodeId).mapError .because
  refuseIf (isRetired nodeId = true) (.because retiredReason)
  refuseIf (nodeId ∉ endpoints.consumers ∧ endpoints.consumers.size ≥ maxEndpointConsumers)
    (.because "endpoint consumer limit reached")
  pure { endpoints with consumers := endpoints.consumers.insert nodeId }

/-- A consumer confirms that it withdrew an earlier generation. Generations never repeat, so a
retried receipt changes nothing. -/
def acknowledgeWithdrawal (isRetired : String → Bool) (nodeId : String) (generation : Nat)
    : Except EndpointRefusal Endpoints := do
  (validateNodeId nodeId).mapError .because
  refuseIf (isRetired nodeId = true) (.because retiredReason)
  refuseIf (nodeId ∉ endpoints.consumers) (.because "endpoint consumer is not registered")
  refuseIf (generation = 0 ∨ generation ≥ endpoints.withdrawals.generation)
    (.because "endpoint receipt must name an original withdrawn generation")
  pure { endpoints with withdrawals := endpoints.withdrawals.acknowledge nodeId generation }

/-- A consumer whose view has run out; it stopped routing. -/
def dischargeConsumer (nodeId : String) : Except EndpointRefusal Endpoints := do
  (validateNodeId nodeId).mapError .because
  if endpoints.consumers.contains nodeId then
    pure { endpoints with
      consumers := endpoints.consumers.erase nodeId
      withdrawals := endpoints.withdrawals.retireConsumer nodeId }
  else pure endpoints

/-- Retire an execution for good; the answer says whether its address may be reused. -/
def retireExecution (isRetired : String → Bool) (nodeId : String) (execution : RuntimeExecution)
    : Except EndpointRefusal (Bool × Endpoints) := do
  refuseIf (isRetired nodeId = true) (.because retiredReason)
  let producers ← (endpoints.producers.planRetirement nodeId execution).mapError .producer
  let catalog := producers.withdraw endpoints.catalog
  let withdrawals ← (endpoints.withdrawals.planPublication endpoints.catalog catalog
    endpoints.consumers).mapError .withdrawal
  pure (producers.releaseConfirmed nodeId execution withdrawals,
    { endpoints with catalog, withdrawals, producers })

/-- Publish a catalogue in place of the one of the expected generation. -/
def publish (isRetired : String → Bool) (expectedGeneration : Nat) (catalog : EndpointCatalog)
    : Except EndpointRefusal Endpoints := do
  let current := endpoints.withdrawals.generation
  refuseIf (expectedGeneration ≠ current)
    (.because (s!"endpoint publication generation changed: expected {expectedGeneration}, "
      ++ s!"current {current}; rebuild from committed state"))
  refuseIf (catalog.anyBackend (fun backend => isRetired backend.nodeId) = true)
    (.because "endpoint catalogue targets a retired node identity")
  refuseIf
    (catalog.anyBackend (fun backend =>
      endpoints.producers.blocks backend.nodeId backend.execution) = true)
    (.because "endpoint catalogue targets a retired or uncorrelated producer execution")
  let withdrawals ← (endpoints.withdrawals.planPublication endpoints.catalog catalog
    endpoints.consumers).mapError .withdrawal
  pure { endpoints with catalog, withdrawals }

/-- Take a decommissioned node out: its backends, and what it owes as a consumer. -/
def decommission (nodeId : String) : Except EndpointRefusal Endpoints := do
  let catalog := endpoints.catalog.withoutNode nodeId
  let consumers := endpoints.consumers.erase nodeId
  let withdrawals ← ((endpoints.withdrawals.retireConsumer nodeId).planPublication
    endpoints.catalog catalog consumers).mapError .withdrawal
  pure { endpoints with catalog, withdrawals, consumers }

end Endpoints

end Reliaburger
