import Reliaburger.Leader.Grants
import Reliaburger.Library.Extremes
import Reliaburger.Registry.Catalog

/-! The cluster's security state: certificate authorities, secret keys, tokens and revocations,
and how the key or token a decision depends on is chosen.
-/

namespace Reliaburger

def maxRetiredNodes : Nat := 65536

def maxJoinTokens : Nat := 1024

def seconds (count : Nat) : Int := (count : Int) * 10 ^ 9

-- Certificates

inductive CaRole where
  | root
  | node
  | workload
  | ingress
deriving DecidableEq, Repr

inductive CaState where
  | active
  /-- Trusted but never used to sign; the time is when its longest-lived leaf expires. -/
  | retiring (expiry : SystemTime)
deriving DecidableEq, Repr

def CaState.isRetiring : CaState → Bool
  | .active => false
  | .retiring _ => true

structure CertificateAuthority where
  role : CaRole
  certificateDer : String
  privateKeyWrapped : Option String
  serial : Nat
  notBefore : SystemTime
  notAfter : SystemTime
  issuerSerial : Option Nat
  /-- A `u64` of the code. A hierarchy starts at 0 and a rotation, which takes an entry of the log,
  adds one; the log's indices are `u64` too, so it does not wrap. -/
  generation : Nat
  state : CaState
deriving DecidableEq, Repr

/-- An intermediate that waits for the operator's signature. -/
structure PendingIntermediate where
  role : CaRole
  generation : Nat
  serial : Nat
  csrDer : String
  privateKeyWrapped : String
deriving DecidableEq, Repr

structure NodeLeafRecord where
  serial : Nat
  caGeneration : Nat
  /-- The newest generation that the node acknowledged trusting. -/
  trustGeneration : Nat
deriving DecidableEq, Repr

/-- The result of decommissioning a node; it is never forgotten. -/
structure NodeRetirement where
  nodeId : String
  retiredBy : String
  reason : String
  retiredAtUnixMs : Nat
  /-- Placement obligations released, by lease. -/
  releasedPlacements : BTreeMap String Nat
  /-- Repository writer obligations released, by lease. -/
  releasedRegistryWriters : BTreeMap String Nat
  releasedNodeFault : Option Nat
  releasedEndpointConsumer : Bool
deriving DecidableEq

structure CrlEntry where
  serial : Nat
  issuer : CaRole
  revokedAt : SystemTime
  reason : String
  expiresAt : Option SystemTime
deriving DecidableEq, Repr

structure Crl where
  retiredNodes : BTreeMap String NodeRetirement := ∅
  entries : List CrlEntry := []
  version : Nat := 0
  updatedAt : SystemTime := 0
deriving DecidableEq

-- Secret keys

inductive AgeKeyScope where
  | clusterWide
  | namespaced (name : String)
deriving DecidableEq, Repr

structure AgeKeypair where
  scope : AgeKeyScope
  publicKey : String
  privateKeyWrapped : String
  generation : Nat
  /-- An old generation, kept to decrypt what is not re-encrypted yet. -/
  readOnly : Bool
deriving DecidableEq, Repr

/-- Which generation of which key sealed a stored value. -/
structure SecretSeal where
  scope : AgeKeyScope
  generation : Nat
deriving DecidableEq, Repr

/-- A stored value that a namespace's first key re-sealed: as the leader read it, and anew. -/
structure ResealedSecret where
  appId : AppId
  envKey : String
  previous : String
  sealed : String
deriving DecidableEq, Repr

/-- The age key that the root CA's backup was sealed to at init. -/
def AgeKeypair.opensRootCaBackup (keypair : AgeKeypair) : Bool :=
  keypair.scope == .clusterWide && keypair.generation == 0

-- Tokens

inductive ApiRole where
  | admin
  | deployer
  | readOnly
deriving DecidableEq, Repr

structure TokenScope where
  apps : Option (List String) := none
  namespaces : Option (List String) := none
deriving DecidableEq, Repr

structure PreviousSecret where
  tokenHash : String
  validUntil : SystemTime
deriving DecidableEq, Repr

structure ApiToken where
  name : String
  /-- The digest of the secret. -/
  tokenHash : String
  role : ApiRole
  scope : TokenScope := {}
  expiresAt : Option SystemTime := none
  createdAt : SystemTime := 0
  previousSecret : Option PreviousSecret := none
deriving DecidableEq, Repr

structure TokenRotation where
  name : String
  tokenHash : String
  rotatedAt : SystemTime
  expiresAt : Option SystemTime
  previousValidUntil : Option SystemTime
deriving DecidableEq, Repr

namespace ApiToken

def applyRotation (rotation : TokenRotation) (token : ApiToken) : ApiToken :=
  { token with
    tokenHash := rotation.tokenHash
    previousSecret := rotation.previousValidUntil.map (fun validUntil =>
      { tokenHash := token.tokenHash, validUntil })
    createdAt := rotation.rotatedAt
    expiresAt := rotation.expiresAt }

end ApiToken

/-- How long an expired token stays listed, in milliseconds. -/
def expiredTokenGraceMs : Nat := 24 * 60 * 60 * 1000

/-- A token is due once its expiry and the grace period have passed. -/
def isDue (nowUnixMs : Nat) (token : ApiToken) : Bool :=
  token.expiresAt.any (fun expiry =>
    min (unixMillis expiry + expiredTokenGraceMs) (u64Size - 1) < nowUnixMs)

def compareExpiry (first second : ApiToken) : Ordering :=
  (compare (first.expiresAt.map unixMillis) (second.expiresAt.map unixMillis)).then
    (compare first.name second.name)

def latestName (candidates : List ApiToken) : Option String :=
  (Extremes.maxBy compareExpiry candidates).map (·.name)

/-- The token that a sweep keeps although it is due: the last admin, or the last token. -/
def sweepKeeps (tokens : List ApiToken) (nowUnixMs : Nat) : Option String :=
  let due := tokens.filter (isDue nowUnixMs)
  let admins := tokens.filter (fun token => token.role == .admin)
  let dueAdmins := due.filter (fun token => token.role == .admin)
  if admins.length > 0 && dueAdmins.length == admins.length then latestName dueAdmins
  else if !due.isEmpty && due.length == tokens.length then latestName due
  else none

/-- The names of the tokens that the expiry sweep removes, in store order. -/
def tokensToSweep (tokens : List ApiToken) (nowUnixMs : Nat) : List String :=
  ((tokens.filter (isDue nowUnixMs)).filter (fun token =>
    some token.name != sweepKeeps tokens nowUnixMs)).map (·.name)

structure JoinToken where
  tokenHash : String
  consumed : Bool
  /-- The only node that it may enrol. -/
  nodeId : String
deriving DecidableEq, Repr

-- The security state

structure SecurityState where
  certificateAuthorities : List CertificateAuthority := []
  ageKeypairs : List AgeKeypair := []
  apiTokens : List ApiToken := []
  joinTokens : List JoinToken := []
  /-- A `u64` of the code. An entry of the log takes at most one serial, and a log has fewer entries
  than there are `u64`, so no run comes back to a serial that it took. -/
  nextSerial : Nat := 0
  crl : Crl := {}
  /-- What sealed each stored value, by `namespace/app/KEY`. -/
  secretSeals : BTreeMap String SecretSeal := ∅
  nodeLeaves : BTreeMap String NodeLeafRecord := ∅
  pendingIntermediates : List PendingIntermediate := []

namespace SecurityState

variable (security : SecurityState)

/-- Seeded: it holds a CA, a secret key or a token. -/
def isInitialised : Bool :=
  !security.certificateAuthorities.isEmpty
    || !security.ageKeypairs.isEmpty
    || !security.apiTokens.isEmpty

def isRetired (nodeId : String) : Bool :=
  security.crl.retiredNodes.contains nodeId

def activeCa (role : CaRole) : Option CertificateAuthority :=
  Extremes.maxBy (compareOn CertificateAuthority.generation)
    (security.certificateAuthorities.filter (fun ca => ca.role == role && ca.state == .active))

def retiringCa (role : CaRole) : Option CertificateAuthority :=
  security.certificateAuthorities.find? (fun ca => ca.role == role && ca.state.isRetiring)

/-- The key new secrets are encrypted with: the newest that is not read-only, or the newest if
all are. -/
def activeAgeKeypair (scope : AgeKeyScope) : Option AgeKeypair :=
  (Extremes.maxBy (compareOn AgeKeypair.generation)
    (security.ageKeypairs.filter (fun keypair => keypair.scope == scope && !keypair.readOnly))).or
  (Extremes.maxBy (compareOn AgeKeypair.generation)
    (security.ageKeypairs.filter (fun keypair => keypair.scope == scope)))

def ageKeypairsForScope (scope : AgeKeyScope) : List AgeKeypair :=
  (security.ageKeypairs.filter (fun keypair => keypair.scope == scope)).insertionSort
    (fun first second => second.generation ≤ first.generation)

def hasNamespaceKey (ns : String) : Bool :=
  security.ageKeypairs.any (fun keypair => keypair.scope == .namespaced ns)

/-- The keys that may decrypt a value of a namespace: its own once it has one, the cluster-wide
ones before. -/
def decryptionKeypairs (ns : String) : List AgeKeypair :=
  if security.hasNamespaceKey ns then security.ageKeypairsForScope (.namespaced ns)
  else security.ageKeypairsForScope .clusterWide

def takeSerial : Nat × SecurityState :=
  (security.nextSerial, { security with nextSerial := security.nextSerial + 1 })

@[simp] theorem mem_ageKeypairsForScope {security : SecurityState} {scope : AgeKeyScope}
    {keypair : AgeKeypair}
    : keypair ∈ security.ageKeypairsForScope scope
      ↔ keypair ∈ security.ageKeypairs ∧ keypair.scope = scope := by
  simp [ageKeypairsForScope]

end SecurityState

-- Rotations

inductive CaRotationError where
  | rootRotationUnsupported
  | roleMismatch (expected found : CaRole)
  | noActiveCa (role : CaRole)
  | alreadyInProgress (role : CaRole)
  | wrongGeneration (role : CaRole) (expected found : Nat)
  | missingKey (role : CaRole)
  | notSignedByRoot (role : CaRole) (reason : String)
  | notInProgress (role : CaRole)
  | liveNodeLeaves (nodes : List String)
  | leavesMayStillBeValid (role : CaRole) (untilUnixSecs : Nat)
  | unacknowledgedTrust (nodes : List String)
  | unknownNode (node : String)
  | unknownGeneration (acknowledged active : Nat)
deriving DecidableEq, Repr

/-- What applying a begin did: a retry changes nothing. -/
inductive BeginOutcome where
  | started
  | alreadyApplied
deriving DecidableEq, Repr

def clockSkewBackdate : Int := seconds 300

def longestLeafLifetime : CaRole → Int
  | .node => seconds (365 * 24 * 3600)
  | .ingress => seconds (90 * 24 * 3600)
  | .workload => seconds 3600
  | .root => seconds (5 * 365 * 24 * 3600)

namespace SecurityState

open Checks

variable (security : SecurityState)

def findActiveCa (role : CaRole) : Except CaRotationError CertificateAuthority :=
  match security.activeCa role with
  | some ca => .ok ca
  | none => .error (.noActiveCa role)

def replaceCa (authorities : List CertificateAuthority) (role : CaRole) (activeGeneration : Nat)
    (expiry : SystemTime) (new : CertificateAuthority)
    : List CertificateAuthority :=
  authorities.map (fun ca =>
    if ca.role = role ∧ ca.generation = activeGeneration then { ca with state := .retiring expiry }
    else ca)
  ++ [{ new with state := .active }]

/-- Start rotating a role to a new CA, which `signed` checks against the root. -/
def begin (signed : String → String → Except String Unit) (security : SecurityState)
    (role : CaRole) (new : CertificateAuthority)
    : Except CaRotationError (BeginOutcome × SecurityState) := do
  refuseIf (role = .root) .rootRotationUnsupported
  refuseIf (new.role ≠ role) (.roleMismatch role new.role)
  if security.certificateAuthorities.any (fun ca =>
      ca.role == role && ca.generation == new.generation) then
    pure (.alreadyApplied, security)
  else
    refuseIf ((security.retiringCa role).isSome = true) (.alreadyInProgress role)
    let active ← security.findActiveCa role
    refuseIf (new.generation ≠ active.generation + 1)
      (.wrongGeneration role (active.generation + 1) new.generation)
    refuseIf (new.privateKeyWrapped = none) (.missingKey role)
    let root ← security.findActiveCa .root
    (signed new.certificateDer root.certificateDer).mapError (.notSignedByRoot role)
    -- The moment the new CA was made stands for the moment the old one stops signing.
    let expiry := new.notBefore + clockSkewBackdate + longestLeafLifetime role
    pure (.started, { security with
      certificateAuthorities := replaceCa security.certificateAuthorities role active.generation
        expiry new
      pendingIntermediates := security.pendingIntermediates.filter (fun pending =>
        pending.role != role) })

def activeNodeGeneration : Nat :=
  ((security.activeCa .node).map (·.generation)).getD 0

def liveNodes (holds : NodeLeafRecord → Bool) : List String :=
  (security.nodeLeaves.toList.filter (fun entry =>
    holds entry.2 && !security.isRetired entry.1)).map (·.1)

/-- The nodes whose latest leaf a Node CA of the generation, or older, signed. -/
def nodesOnRetiringCa (generation : Nat) : List String :=
  security.liveNodes (fun leaf => leaf.caGeneration ≤ generation)

def nodesNotTrustingActiveCa : List String :=
  security.liveNodes (fun leaf => leaf.trustGeneration < security.activeNodeGeneration)

/-- Why the retiring CA of a role cannot go yet. Nodes are known one by one; other leaves have to
be waited for. -/
def checkFinalize (role : CaRole) (retiring : CertificateAuthority) (expiry now : SystemTime)
    : Except CaRotationError Unit := do
  refuseIf (role = .node ∧ security.nodesNotTrustingActiveCa ≠ [])
    (.unacknowledgedTrust security.nodesNotTrustingActiveCa)
  if now < expiry then
    refuseIf (role ≠ .node) (.leavesMayStillBeValid role (expiry / 10 ^ 9).toNat)
    refuseIf (security.nodesOnRetiringCa retiring.generation ≠ [])
      (.liveNodeLeaves (security.nodesOnRetiringCa retiring.generation))

def finalize (role : CaRole) (now : SystemTime) : Except CaRotationError SecurityState := do
  match security.retiringCa role with
  | none => throw (.notInProgress role)
  | some retiring =>
    match retiring.state with
    | .active => throw (.notInProgress role)
    | .retiring expiry =>
      security.checkFinalize role retiring expiry now
      pure { security with
        certificateAuthorities := security.certificateAuthorities.filter (fun ca =>
          ca.role != role || ca.state == .active) }

/-- Record the serial that was just allocated for a node's leaf, under the Node CA active now. A
node seen for the first time starts out trusting it. -/
def recordNodeLeaf (nodeId : String) (serial : Nat) : SecurityState :=
  let caGeneration := security.activeNodeGeneration
  let trustGeneration :=
    (security.nodeLeaves[nodeId]?.map (·.trustGeneration)).getD caGeneration
  { security with
    nodeLeaves := security.nodeLeaves.insert nodeId { serial, caGeneration, trustGeneration } }

/-- Hold a new key and its request for the operator to sign; answers the serial that the signed
certificate must carry. -/
def prepare (role : CaRole) (generation : Nat) (csrDer privateKeyWrapped : String)
    : Except CaRotationError (Nat × SecurityState) := do
  refuseIf (role = .root) .rootRotationUnsupported
  refuseIf ((security.retiringCa role).isSome = true) (.alreadyInProgress role)
  let active ← security.findActiveCa role
  refuseIf (generation ≠ active.generation + 1)
    (.wrongGeneration role (active.generation + 1) generation)
  let (serial, taken) := security.takeSerial
  pure (serial, { taken with
    pendingIntermediates :=
      security.pendingIntermediates.filter (fun pending => pending.role != role)
        ++ [{ role, generation, serial, csrDer, privateKeyWrapped }] })

def acknowledgeTrust (nodeId : String) (generation : Nat)
    : Except CaRotationError SecurityState := do
  refuseIf (generation > security.activeNodeGeneration)
    (.unknownGeneration generation security.activeNodeGeneration)
  match security.nodeLeaves[nodeId]? with
  | none => throw (.unknownNode nodeId)
  | some record =>
    pure { security with
      nodeLeaves := security.nodeLeaves.insert nodeId
        { record with trustGeneration := max record.trustGeneration generation } }

end SecurityState

end Reliaburger
