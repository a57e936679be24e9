import Reliaburger.Council.Workloads

/-! Test leases as the council writes them: every leased resource is created together with its
ownership record, and the record outlives the resource.
-/

namespace Reliaburger

open Checks

def isEncryptedText (text : String) : Bool :=
  startsWith text "ENC[AGE:" && text.toList.getLast? == some ']'

namespace DesiredState

variable (state : DesiredState)

def withSecurity (security : SecurityState) : DesiredState :=
  { state with security }

/-- Init seeds a new cluster once. -/
def securityStateInit (security : SecurityState) : Answered := do
  refuseWhen (state.security.isInitialised = true)
    "the cluster's security state is already initialised"
  accept (state.withSecurity security)

-- Joining and serial numbers

/-- Consumed tokens are pruned, and the oldest beyond the cap. -/
def createJoinToken (token : JoinToken) : Answered := do
  refuseWhen (state.security.isRetired token.nodeId = true) "node identity is retired"
  let tokens := state.security.joinTokens.filter (fun token => !token.consumed) ++ [token]
  accept (state.withSecurity { state.security with
    joinTokens := tokens.drop (tokens.length - maxJoinTokens) })

def consumeToken (tokens : List JoinToken) (tokenHash : String) : List JoinToken :=
  Rows.changeFirst (fun token => token.tokenHash == tokenHash)
    (fun token => { token with consumed := true }) tokens

def consumeJoinToken (tokenHash : String) : Answered :=
  accept (state.withSecurity { state.security with
    joinTokens := consumeToken state.security.joinTokens tokenHash })

/-- Consume a token and allocate its serial in one step, so that it mints one only. -/
def consumeJoinTokenForIssue (tokenHash : String) : Answered := do
  match state.security.joinTokens.find? (fun token => token.tokenHash == tokenHash) with
  | none => throw (.because "join token not found")
  | some token =>
    refuseWhen (state.security.isRetired token.nodeId = true) "node identity is retired"
    refuseWhen (token.consumed = true) "join token already consumed"
    let serial := state.security.nextSerial
    let consumed := { state.security with
      joinTokens := consumeToken state.security.joinTokens tokenHash
      nextSerial := serial + 1 }
    .ok (.joinTokenConsumed serial,
      state.withSecurity (consumed.recordNodeLeaf token.nodeId serial))

def allocateSerial : Answered :=
  let (serial, security) := state.security.takeSerial
  .ok (.serialAllocated serial, state.withSecurity security)

def allocateNodeSerial (nodeId : String) : Answered := do
  refuseWhen (state.security.isRetired nodeId = true) "node identity is retired"
  let (serial, security) := state.security.takeSerial
  .ok (.serialAllocated serial, state.withSecurity (security.recordNodeLeaf nodeId serial))

-- API tokens

def withTokens (apiTokens : List ApiToken) : DesiredState :=
  state.withSecurity { state.security with apiTokens }

def createApiToken (token : ApiToken) : Answered := do
  refuseWhen
    (startsWith token.name "rbtest-" = true
      ∨ state.security.apiTokens.any (fun existing => existing.name == token.name) = true)
    "token name already exists or requires a test lease"
  accept (state.withTokens (state.security.apiTokens ++ [token]))

/-- A revoke may not take the last admin. -/
def revokeApiToken (name : String) : Answered := do
  let tokens := state.security.apiTokens
  let shown := quoted name
  refuseWhen
    (tokens.any (fun token => token.name == name && token.role == .admin) = true
      ∧ (tokens.filter (fun token => token.role == .admin)).length ≤ 1)
    s!"refusing to revoke {shown}: it is the last Admin token; create a replacement Admin token before revoking this one"
  accept (state.withTokens (tokens.filter (fun token => token.name != name)))

/-- A rotation changes the secret and its expiry, never the name or the role. -/
def rotateApiToken (rotation : TokenRotation) : Answered := do
  let tokens := state.security.apiTokens
  let shown := quoted rotation.name
  refuseWhen (startsWith rotation.name "rbtest-" = true) "test-lease tokens can't be rotated"
  refuseWhen (tokens.any (fun token => token.name == rotation.name) = false)
    s!"no API token named {shown}"
  accept (state.withTokens (Rows.changeFirst (fun token => token.name == rotation.name)
    (ApiToken.applyRotation rotation) tokens))

def sweepExpiredApiTokens (nowUnixMs : Nat) : Answered :=
  let removed := tokensToSweep state.security.apiTokens nowUnixMs
  .ok (.apiTokensSwept removed, state.withTokens
    (state.security.apiTokens.filter (fun token => !removed.contains token.name)))

-- Secret keys

/-- Whether one value may be re-sealed: it is the namespace's, and still as the leader read
it. -/
def checkResealed (ns : String) (entry : ResealedSecret) : Except String Unit := do
  let name := sealKey entry.appId entry.envKey
  refuseIf (entry.appId.ns ≠ ns)
    s!"cannot re-seal {name} under namespace {ns}'s key: it belongs to another namespace"
  refuseIf (isEncryptedText entry.sealed = false)
    s!"re-sealed value for {name} is not ENC[AGE:...]"
  let current := state.apps[entry.appId]?.bind (fun spec => spec.env[entry.envKey]?)
  refuseIf
    (current.any (fun value => value.isEncrypted && value.asStr == entry.previous) = false)
    s!"stale re-seal: {name} changed after the leader read it"

/-- Only a namespace's first key re-seals values. -/
def checkReseal (scope : AgeKeyScope) (firstKey : Bool) (resealed : List ResealedSecret)
    : Except String Unit := do
  match scope with
  | .clusterWide => throw "only a namespace's first secret key re-seals stored values"
  | .namespaced ns =>
    refuseIf (firstKey = false)
      s!"namespace {ns} already has a secret key; only its first key re-seals stored values"
    checkAll (state.checkResealed ns) resealed

/-- Write a re-sealed value where its app still is. -/
def resealValue (apps : BTreeMap AppId AppSpec) (entry : ResealedSecret) : BTreeMap AppId AppSpec :=
  match apps[entry.appId]? with
  | none => apps
  | some spec =>
    apps.insert entry.appId
      { spec with env := spec.env.insert entry.envKey (.encrypted entry.sealed) }

/-- Switch a namespace to its first key: write the re-sealed values, and record every app's seals
under the scope that is now its effective one. -/
def adoptNamespaceKey (ns : String) (resealed : List ResealedSecret) : DesiredState :=
  let apps := resealed.foldl resealValue state.apps
  let inNamespace := apps.toList.filter (fun entry => entry.1.ns == ns)
  { state with
    apps
    security := inNamespace.foldl (fun security entry =>
      security.recordSecretSeals entry.1 entry.2) state.security }

def addKeypair (keypairs : List AgeKeypair) (scope : AgeKeyScope) (newKeypair : AgeKeypair)
    : List AgeKeypair :=
  keypairs.map (fun keypair =>
    if keypair.scope = scope then { keypair with readOnly := true } else keypair)
  ++ [newKeypair]

def checkCarried (scope : AgeKeyScope) (firstKey : Bool) (resealed : List ResealedSecret)
    : Except String Unit :=
  if resealed.isEmpty then .ok () else state.checkReseal scope firstKey resealed

/-- Whether a key would be the first of its scope. -/
def isFirstKey (scope : AgeKeyScope) : Bool :=
  !state.security.ageKeypairs.any (fun keypair => keypair.scope == scope)

/-- The state with a new key, before the values it re-seals. -/
def rotated (scope : AgeKeyScope) (newKeypair : AgeKeypair) : DesiredState :=
  state.withSecurity { state.security with
    ageKeypairs := addKeypair state.security.ageKeypairs scope newKeypair }

/-- The state once a rotation has started: a namespace's first key takes over its values. -/
def started (scope : AgeKeyScope) (newKeypair : AgeKeypair) (resealed : List ResealedSecret)
    : DesiredState :=
  match scope with
  | .clusterWide => state.rotated scope newKeypair
  | .namespaced ns =>
    if state.isFirstKey scope then (state.rotated scope newKeypair).adoptNamespaceKey ns resealed
    else state.rotated scope newKeypair

def rotateSecretKey (scope : AgeKeyScope) (newKeypair : AgeKeypair) (resealed : List ResealedSecret)
    : Answered := do
  let keypairs := state.security.ageKeypairs
  -- A retry of the same rotation keeps the key that was applied first.
  if keypairs.any (fun keypair =>
      keypair.scope == scope && keypair.generation == newKeypair.generation) then
    accept state
  else
    refuseWhen (keypairs.any (fun keypair => keypair.scope == scope && keypair.readOnly) = true)
      "a secret rotation for this scope is already in progress: re-encrypt stored secrets and finalise it before starting another"
    (state.checkCarried scope (state.isFirstKey scope) resealed).mapError .because
    accept (state.started scope newKeypair resealed)

/-- Whether a stored value still needs an older generation than `newest` of the scope. A value
without a seal counts for its app's effective scope. -/
def isStaleSeal (security : SecurityState) (scope : AgeKeyScope) (newest : Nat) (appId : AppId)
    (envKey : String)
    : Bool :=
  match security.secretSeals[sealKey appId envKey]? with
  | some seal_ => seal_.scope == scope && seal_.generation < newest
  | none => security.effectiveSecretScope appId.ns == scope

/-- The stored values of a scope that are sealed under an older generation, in order. -/
def staleSealedSecrets (scope : AgeKeyScope) (newest : Nat) : List String :=
  (state.apps.toList.flatMap (fun entry =>
    (entry.2.encryptedKeys.filter (isStaleSeal state.security scope newest entry.1)).map
      (sealKey entry.1))).insertionSort (· ≤ ·)

def newestGeneration (keypairs : List AgeKeypair) (scope : AgeKeyScope) : Nat :=
  (((keypairs.filter (fun keypair => keypair.scope == scope)).map (·.generation)).max?).getD 0

/-- Whether a key outlives the end of its scope's rotation. -/
def survivesFinalize (scope : AgeKeyScope) (keypair : AgeKeypair) : Bool :=
  keypair.scope != scope || !keypair.readOnly || keypair.opensRootCaBackup

/-- Retire the read-only keys of a scope, once no stored value needs them. -/
def finalizeSecretRotation (scope : AgeKeyScope) : Answered := do
  let keypairs := state.security.ageKeypairs
  refuseWhen
    (keypairs.any (fun keypair => keypair.scope == scope && !keypair.readOnly) = false)
    "no active replacement key exists for this scope: start a rotation before finalising one"
  let stale := state.staleSealedSecrets scope (newestGeneration keypairs scope)
  let listed := ", ".intercalate stale
  refuseWhen (stale ≠ [])
    s!"cannot finalise secret rotation: secrets still sealed under an old generation (re-encrypt and re-apply them first): {listed}"
  accept (state.withSecurity { state.security with
    ageKeypairs := keypairs.filter (survivesFinalize scope) })

-- Certificates

/-- Entries whose certificates have expired are dropped, by the time in the log. -/
def revokeCertificate (entry : CrlEntry) : Answered :=
  let crl := state.security.crl
  accept (state.withSecurity { state.security with
    crl := { crl with
      entries := (crl.entries ++ [entry]).filter (fun entry' =>
        entry'.expiresAt.all (fun expiry => entry.revokedAt < expiry))
      version := crl.version + 1
      updatedAt := entry.revokedAt } })

def caRotationBegin (S : Surroundings) (state : DesiredState) (role : CaRole)
    (ca : CertificateAuthority)
    : Answered := do
  let (_, security) ← (state.security.begin S.signedBy role ca).mapError .rotation
  accept (state.withSecurity security)

def caRotationPrepare (role : CaRole) (generation : Nat) (csrDer privateKeyWrapped : String)
    : Answered := do
  let (serial, security) ← (state.security.prepare role generation csrDer
    privateKeyWrapped).mapError .rotation
  .ok (.serialAllocated serial, state.withSecurity security)

def acknowledgeNodeTrust (nodeId : String) (generation : Nat) : Answered := do
  let security ← (state.security.acknowledgeTrust nodeId generation).mapError .rotation
  accept (state.withSecurity security)

def caRotationFinalize (role : CaRole) (nowUnixMs : Nat) : Answered := do
  let security ← (state.security.finalize role ((nowUnixMs : Int) * 10 ^ 6)).mapError .rotation
  accept (state.withSecurity security)

-- Test leases

def findLease (leaseId : String) : Except Refusal TestLease :=
  match state.testLeases[leaseId]? with
  | some lease => .ok lease
  | none => .error (.because "lease not found")

def putLease (leaseId : String) (lease : TestLease) : DesiredState :=
  { state with testLeases := state.testLeases.insert leaseId lease }

def testLeaseCreate (lease : TestLease) : Answered := do
  refuseWhen (lease.repositories.isEmpty = false ∨ lease.workloadsRetired = true)
    "a new lease cannot carry registry receipts or retirement confirmations"
  lease.validate.mapError .lease
  refuseWhen (lease.leaseId ∈ state.testLeases) "lease already exists"
  refuseWhen (state.testLeases.size ≥ maxActiveTestLeases) "too many active test leases"
  refuseWhen (state.namespaceIsLeased lease.ns = true) "lease namespace is already owned"
  accept (state.putLease lease.leaseId lease)

def testLeaseRegistryWriter (leaseId repository : String) (nodeId : Nat) (ownerId : Option String)
    (observedAtUnixMs : Nat)
    : Answered := do
  refuseWhen (state.registryNodeRetired nodeId = true) "registry writer identity is retired"
  let lease ← state.findLease leaseId
  let attached ← (lease.attachRegistryWriter repository nodeId ownerId
    observedAtUnixMs).mapError .lease
  accept (state.putLease leaseId attached)

def testLeaseManifestCommit (leaseId : String) (observedAtUnixMs : Nat) (commit : ManifestCommit)
    : Answered := do
  if !state.registry.publicationIsCurrent commit then
    .ok (.registryPublicationStale, state)
  else
    refuseWhen
      (state.registryNodeRetired commit.manifest.pushedBy
        || !state.testLeases[leaseId]?.any (fun lease =>
          lease.permitsRegistryCommit commit observedAtUnixMs))
      "repository lease or writer is not active"
    let claimed ← (state.registry.catalog.claimRepository commit.manifest.repository
      leaseId).mapError .pickle
    accept (state.withCatalog (claimed.applyManifestCommit commit))

/-- Whether a cleaning lease owns no workload and no placement any more. -/
def leaseWorkloadsAbsent (lease : TestLease) : Bool :=
  lease.state.isCleaning
    && lease.placements.isEmpty
    && lease.resources.toList.all (fun resource =>
      !state.holds resource)

def testLeaseWorkloadsRetired (leaseId : String) : Answered := do
  let lease ← state.findLease leaseId
  refuseWhen (state.leaseWorkloadsAbsent lease = false)
    "lease still owns workloads or placement obligations"
  accept (state.putLease leaseId { lease with workloadsRetired := true })

def testLeaseRegistryRetired (leaseId repository : String) (nodeId : Nat) : Answered := do
  let lease ← state.findLease leaseId
  refuseWhen (lease.workloadsRetired = false ∨ lease.state.isCleaning = false)
    "lease workloads have not retired"
  match lease.repositories[repository]? with
  | none => throw (.because "repository does not belong to lease")
  | some owners =>
    accept (state.putLease leaseId { lease with
      repositories := lease.repositories.insert repository (owners.erase nodeId) })

def testLeaseJobs (leaseId : String) (observedAtUnixMs : Nat) (jobs : List AppId) : Answered := do
  let lease ← state.findLease leaseId
  refuseWhen (lease.isActiveAt observedAtUnixMs = false) "lease is expired or cleanup has started"
  refuseWhen (lease.scope ≠ .nodeJobs) "only a job lease can own jobs"
  refuseWhen (jobs.any (fun job => job.ns != lease.ns) = true)
    "job namespace does not match its lease"
  let resources := jobs.foldl (fun resources job => resources.insert (.job job))
    (∅ : BTreeSet LeasedResource)
  let additional := (resources.toList.filter (fun resource =>
    !lease.resources.contains resource)).length
  refuseWhen (lease.resourceCount + additional > maxLeasedResources)
    "lease resource limit reached"
  refuseWhen
    (state.testLeases.toList.any (fun entry => entry.1 != leaseId
      && resources.toList.any (fun resource => entry.2.resources.contains resource)) = true)
    "job already belongs to another lease"
  accept (state.putLease leaseId { lease with
    resources := resources.toList.foldl (fun owned resource => owned.insert resource)
      lease.resources })

def testLeaseAppSpec (S : Surroundings) (state : DesiredState) (leaseId : String)
    (observedAtUnixMs : Nat) (appId : AppId) (spec : AppSpec)
    : Answered := do
  refuseWhen (state.deploymentOwns appId = true)
    "an outstanding job deployment owns this app"
  let lease ← state.findLease leaseId
  refuseWhen (lease.scope ≠ .applications) "a job lease owns only jobs"
  refuseWhen (lease.isActiveAt observedAtUnixMs = false) "lease is expired or cleanup has started"
  refuseWhen (appId.ns ≠ lease.ns) "app namespace does not match its lease"
  (authoriseImageReferences ((spec.imageReferences).filterMap S.imageRepository)
    (some (lease, observedAtUnixMs))).mapError .lease
  let alreadyOwned := lease.resources.contains (.app appId)
  refuseWhen (alreadyOwned = false ∧ lease.resourceCount ≥ maxLeasedResources)
    "lease resource limit reached"
  let ownedElsewhere := state.testLeases.toList.any (fun entry =>
    entry.1 != leaseId && entry.2.resources.contains (.app appId))
  refuseWhen
    (ownedElsewhere = true ∨ (appId ∈ state.apps ∧ alreadyOwned = false))
    "app already exists outside this lease"
  state.checkOwner appId spec
  let leased := state.putLease leaseId { lease with
    resources := lease.resources.insert (.app appId) }
  accept (leased.applyAppSpec appId spec)

def testLeaseNamespaceSpec (leaseId : String) (observedAtUnixMs : Nat) (name : String)
    (spec : Section)
    : Answered := do
  let lease ← state.findLease leaseId
  refuseWhen (lease.scope ≠ .applications) "a job lease owns only jobs"
  refuseWhen (lease.isActiveAt observedAtUnixMs = false) "lease is expired or cleanup has started"
  refuseWhen (name ≠ lease.ns) "namespace does not match its lease"
  let alreadyOwned := lease.resources.contains (.namespaced name)
  refuseWhen (alreadyOwned = false ∧ lease.resourceCount ≥ maxLeasedResources)
    "lease resource limit reached"
  refuseWhen (name ∈ state.namespaces ∧ alreadyOwned = false)
    "namespace already exists outside this lease"
  let leased := state.putLease leaseId { lease with
    resources := lease.resources.insert (.namespaced name) }
  accept { leased with namespaces := leased.namespaces.insert name spec }

def tokenResource (S : Surroundings) (lease : TestLease) (token : ApiToken) (ownerId : String)
    (nowUnixMs : Nat)
    : Except LeaseError LeasedResource := do
  lease.authoriseOwner ownerId nowUnixMs
  refuseIf (lease.scope ≠ .applications) .invalidScope
  let expires := token.expiresAt.filter (fun time => 0 ≤ time)
  refuseIf
    (startsWith token.name (lease.ns ++ "-") = false
      ∨ token.role = .admin
      ∨ token.scope.namespaces ≠ some [lease.ns]
      ∨ expires.all (fun expiry =>
          decide (expiry ≤ (nowUnixMs : Int) * 10 ^ 6)
            || decide (expiry > (lease.expiresAtUnixMs : Int) * 10 ^ 6)) = true)
    .invalidToken
  refuseIf (lease.resourceCount ≥ maxLeasedResources) .resourceLimit
  pure (.apiToken token.name (S.tokenFingerprint token))

def namesToken (name : String) : LeasedResource → Bool
  | .apiToken other _ => other == name
  | _ => false

def testLeaseApiToken (S : Surroundings) (state : DesiredState) (leaseId ownerId : String)
    (observedAtUnixMs : Nat) (token : ApiToken)
    : Answered := do
  let lease ← state.findLease leaseId
  refuseWhen (lease.scope ≠ .applications) "a job lease owns only jobs"
  let resource ← (tokenResource S lease token ownerId observedAtUnixMs).mapError .lease
  refuseWhen
    (state.testLeases.valueList.any (fun lease =>
        lease.resources.toList.any (namesToken token.name)) = true
      ∨ state.security.apiTokens.any (fun existing => existing.name == token.name) = true)
    "token name already exists or is lease-owned"
  let leased := state.putLease leaseId { lease with
    resources := lease.resources.insert resource }
  accept (leased.withTokens (state.security.apiTokens ++ [token]))

def testLeaseRevokeApiToken (S : Surroundings) (state : DesiredState)
    (leaseId name fingerprint : String)
    : Answered := do
  refuseWhen
    (state.testLeases[leaseId]?.any (fun lease =>
      lease.state.isCleaning && lease.resources.contains (.apiToken name fingerprint)) = false)
    "token is not owned by this cleaning lease"
  refuseWhen
    (state.security.apiTokens.any (fun token => token.name == name
      && (S.tokenFingerprint token != fingerprint || token.role == .admin)) = true)
    "owned token has been replaced; refusing to revoke it"
  accept (state.withTokens
    (state.security.apiTokens.filter (fun token => token.name != name)))

def testLeaseRenew (leaseId ownerId : String) (renewedAtUnixMs expiresAtUnixMs : Nat)
    : Answered := do
  let lease ← state.findLease leaseId
  (lease.authoriseOwner ownerId renewedAtUnixMs).mapError .lease
  refuseWhen (expiresAtUnixMs ≤ renewedAtUnixMs) "lease expiry must be in the future"
  accept (state.putLease leaseId { lease with expiresAtUnixMs })

def testLeaseBeginCleanup (leaseId : String) : Answered := do
  let lease ← state.findLease leaseId
  let attempts := match lease.state with
    | .active => 1
    | .cleaning attempts _ => min (attempts + 1) (2 ^ 32 - 1)
  accept (state.putLease leaseId { lease with state := .cleaning attempts none })

def testLeasePlacementRetired (leaseId : String) (placement : LeasedPlacement) : Answered := do
  let lease ← state.findLease leaseId
  refuseWhen
    (lease.state.isCleaning = false
      ∨ placement.appId ∈ state.apps
      ∨ LeasedResource.app placement.appId ∉ lease.resources)
    "lease application is not retiring"
  accept (state.putLease leaseId { lease with placements := lease.placements.erase placement })

def resourceLabel : LeasedResource → String
  | .app appId => appId.text
  | .job jobId => "job " ++ jobId.text
  | .namespaced name => name
  | .apiToken name _ => "token " ++ name

/-- Forget a lease whose resources are all gone, with the repositories it owned. -/
def testLeaseFinishCleanup (leaseId : String) : Answered := do
  let lease ← state.findLease leaseId
  refuseWhen (lease.state.isCleaning = false) "lease cleanup has not started"
  refuseWhen (lease.placements.isEmpty = false) "lease still owns unconfirmed runtime placements"
  let remaining := (lease.resources.toList.filter
    state.holds).map resourceLabel
  let listed := ", ".intercalate remaining
  refuseWhen (remaining ≠ [])
    s!"lease still owns live resources, refusing to finish cleanup: {listed}"
  refuseWhen (lease.registryRetirementConfirmed = false)
    "lease still owns unconfirmed registry writers"
  checkAll (fun repository =>
    (state.registry.catalog.checkRepositoryOwner repository leaseId).mapError .pickle)
    lease.repositories.keys
  let retired := state.withCatalog
    (lease.repositories.keys.foldl (fun catalog repository =>
      catalog.retireRepository repository) state.registry.catalog)
  accept { retired with testLeases := state.testLeases.erase leaseId }

def testLeaseCleanupFailed (leaseId reason : String) : Answered := do
  let lease ← state.findLease leaseId
  match lease.state with
  | .active => throw (.because "lease cleanup has not started")
  | .cleaning attempts _ =>
    accept (state.putLease leaseId { lease with
      state := .cleaning attempts (some (String.ofList (reason.toList.take 512))) })

def testLeaseAppDelete (leaseId : String) (appId : AppId) : Answered := do
  refuseWhen (state.testLeases[leaseId]?.any (fun lease => lease.ns == appId.ns) = false)
    "app is not in this lease's namespace"
  state.removeApp appId

def testLeaseNamespaceDelete (leaseId name : String) : Answered := do
  refuseWhen (state.testLeases[leaseId]?.any (fun lease => lease.ns == name) = false)
    "namespace does not belong to this lease"
  accept (state.removeNamespace name)

end DesiredState

end Reliaburger
