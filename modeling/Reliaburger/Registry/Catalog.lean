import Reliaburger.Config.Types
import Reliaburger.Library.Rows

/-! The image registry's catalogue: manifests, their tags, which nodes hold each blob, and since
when a manifest has had no tag. Rows are kept in lists, in the order they were first written.
-/

namespace Reliaburger

/-- A point in time, in nanoseconds from the Unix epoch. -/
abbrev SystemTime : Type := Int

def unixMillis (time : SystemTime) : Nat :=
  if time < 0 then 0 else min (time.toNat / 10 ^ 6) (u64Size - 1)

/-- Why registry work was refused. -/
inductive PickleError where
  | leaseDenied (reason : String)
  | invalidDigest (reason : String)
deriving DecidableEq, Repr

-- Digests

def isAsciiHexdigit (char : Char) : Bool :=
  char.isDigit || ('a' ≤ char && char ≤ 'f') || ('A' ≤ char && char ≤ 'F')

/-- Only `sha256:` and 64 hexadecimal digits make a digest. -/
def validateDigest (text : String) : Except PickleError Unit :=
  match splitOnce ':' text.toList with
  | none => .error (.invalidDigest s!"missing algorithm prefix: {text}")
  | some (algo, hex) =>
    if algo ≠ "sha256".toList then
      let name := String.ofList algo
      .error (.invalidDigest s!"unsupported algorithm: {name} (only sha256 is supported)")
    else if (String.ofList hex).utf8ByteSize ≠ 64 then
      let size := (String.ofList hex).utf8ByteSize
      .error (.invalidDigest s!"sha256 hex must be 64 chars, got {size}")
    else if !hex.all isAsciiHexdigit then
      let digits := String.ofList hex
      .error (.invalidDigest s!"invalid hex characters in digest: {digits}")
    else .ok ()

/-- A content-addressed digest: `sha256:` and its hexadecimal digits. -/
structure Digest where
  text : String
  valid : validateDigest text = .ok ()
deriving DecidableEq

-- Manifests

structure LayerDescriptor where
  digest : Digest
  size : Nat
  mediaType : String
  /-- For a platform manifest that an image index lists. -/
  platform : Option String := none
deriving DecidableEq

inductive SigningMethod where
  | keyless (issuer identity : String)
  | externalKey (keyId : String)
deriving DecidableEq, Repr

inductive VerificationMaterial where
  | certificateChain (chain : List (List UInt8))
  | publicKey (key : List UInt8)
deriving DecidableEq, Repr

structure ImageSignature where
  method : SigningMethod
  signature : String
  verificationMaterial : VerificationMaterial
  signedAt : SystemTime
deriving DecidableEq, Repr

/-- An image as one repository pushed it. -/
structure ImageManifest where
  digest : Digest
  config : LayerDescriptor
  layers : List LayerDescriptor
  repository : String
  tags : BTreeSet String := ∅
  totalSize : Nat
  pushedAt : SystemTime
  /-- The node that pushed it. -/
  pushedBy : Nat
  signature : Option ImageSignature := none
deriving DecidableEq

namespace ImageManifest

def allDigests (manifest : ImageManifest) : List Digest :=
  manifest.config.digest :: manifest.layers.map (·.digest)

/-- Every digest the entry pins, its own first, each once. -/
def referencedDigests (manifest : ImageManifest) : List Digest :=
  manifest.allDigests.foldl
    (fun digests digest => if digests.contains digest then digests else digests ++ [digest])
    [manifest.digest]

/-- An image index names its own blob as its config. -/
def isIndex (manifest : ImageManifest) : Bool :=
  manifest.config.digest == manifest.digest

end ImageManifest

/-- A push: a manifest, its tag and the nodes that hold its layers. -/
structure ManifestCommit where
  /-- The collection generation seen while the publishing node's blobs were verified. -/
  observedGcGeneration : Nat
  manifest : ImageManifest
  tag : String
  holderNodes : BTreeSet Nat

/-- Evidence that one storage node verified an existing image. -/
structure ImageCopyConfirmation where
  repository : String
  manifestDigest : Digest
  nodeId : Nat
  leaseId : Option String
  observedGcGeneration : Nat
  observedAtUnixMs : Nat

/-- The layers a node wants to delete. -/
structure GcReport where
  nodeId : Nat
  deletedLayers : List Digest

structure DeleteTag where
  repository : String
  tag : String
  deletedAtUnixMs : Nat
deriving DecidableEq

structure ExpireManifest where
  repository : String
  digest : Digest
  /-- The untagging time seen when expiry was planned. -/
  untaggedAtUnixMs : Nat
deriving DecidableEq

structure AttachSignature where
  manifestDigest : Digest
  signature : ImageSignature

/-- Whether a tag only repeats a digest, as pushes by digest have it. -/
def isDigestTag (tag : String) : Bool :=
  "sha256:".toList.isPrefixOf tag.toList

/-- Whether a manifest has a tag that somebody gave it. -/
def hasRealTag (manifest : ImageManifest) : Bool :=
  manifest.tags.toList.any (fun tag => !isDigestTag tag)

def untaggedKey (repository digest : String) : String :=
  repository ++ "@" ++ digest

def tagKey (repository tag : String) : String :=
  repository ++ ":" ++ tag

/-- The registry: its manifests, their tags, and who holds which layer. -/
structure ManifestCatalog where
  /-- The lease that owns each reserved repository. -/
  repositoryOwners : BTreeMap String String := ∅
  /-- Manifest rows with their digest; a repository has its own row for shared content. -/
  manifests : List (String × ImageManifest) := []
  /-- Digests by `repository:tag`. -/
  tags : List (String × String) := []
  /-- Holders by digest. -/
  layerLocations : List (String × BTreeSet Nat) := []
  /-- When each untagged manifest lost its last real tag, by `repository@digest`. -/
  untaggedAt : BTreeMap String Nat := ∅

-- Operations

def rsplitOnce (separator : Char) (text : List Char) : Option (List Char × List Char) :=
  (splitOnce separator text.reverse).map (fun parts => (parts.2.reverse, parts.1.reverse))

/-- Whether a repository name is reserved for test leases. -/
def isTestRepository (repository : String) : Bool :=
  (splitOnce '/' repository.toList).any (fun parts => "rbtest-".toList.isPrefixOf parts.1)

namespace ManifestCatalog

-- Lookups

variable (catalog : ManifestCatalog)

/-- Shared content by digest, whichever repository has it. -/
def getManifest (digest : String) : Option ImageManifest :=
  (catalog.manifests.find? (·.1 == digest)).map Prod.snd

/-- Whether a row is a repository's copy of some content. -/
def isRow (repository digest : String) (row : String × ImageManifest) : Bool :=
  row.1 == digest && row.2.repository == repository

def getRepositoryManifest (repository digest : String) : Option ImageManifest :=
  (catalog.manifests.find? (isRow repository digest)).map Prod.snd

def tagsForRepository (repository : String) : List String :=
  let pre := tagKey repository ""
  (catalog.tags.filter (fun row => pre.toList.isPrefixOf row.1.toList)).map
    (fun row => String.ofList (row.1.toList.drop pre.length))

/-- The layers that some manifest pins. -/
def referencedDigestSet : List String :=
  catalog.manifests.flatMap (fun row => row.2.referencedDigests.map (·.text))

-- Repository owners

/-- Refuse another lease, or metadata whose owner is not known. -/
def checkRepositoryOwner (repository leaseId : String) : Except PickleError Unit :=
  match catalog.repositoryOwners[repository]? with
  | some owner =>
    if owner = leaseId then .ok ()
    else .error (.leaseDenied "repository belongs to another lease generation")
  | none =>
    if catalog.manifests.any (fun row => row.2.repository == repository)
        || !(catalog.tagsForRepository repository).isEmpty then
      .error (.leaseDenied "repository metadata has no confirmed lease owner")
    else .ok ()

def claimRepository (repository leaseId : String) : Except PickleError ManifestCatalog := do
  if leaseId.isEmpty || !isTestRepository repository then
    throw (.leaseDenied "invalid repository lease identity")
  catalog.checkRepositoryOwner repository leaseId
  pure { catalog with
    repositoryOwners := catalog.repositoryOwners.insert repository leaseId }

-- Tags

def withoutTag (loses : String × ImageManifest → Bool) (tag : String)
    (row : String × ImageManifest)
    : String × ImageManifest :=
  if loses row then (row.1, { row.2 with tags := row.2.tags.erase tag }) else row

/-- Whether a row loses its last real tag with `tag`, or had none when it lost it. -/
def losesLastTag (loses : String × ImageManifest → Bool) (tag : String)
    (row : String × ImageManifest)
    : Bool :=
  loses row && row.2.tags.contains tag && !hasRealTag (withoutTag loses tag row).2

/-- Take a tag off the rows that lose it, and start the expiry clock of those left without a
real one. -/
def removeTag (loses : String × ImageManifest → Bool) (tag : String) (time : Nat)
    : ManifestCatalog :=
  { catalog with
    manifests := catalog.manifests.map (withoutTag loses tag)
    untaggedAt := catalog.manifests.foldl
      (fun clocks row =>
        if losesLastTag loses tag row then
          clocks.insertIfNew (untaggedKey row.2.repository row.1) time
        else clocks) catalog.untaggedAt }

/-- Record nodes as holders of a layer. -/
def addHolders (nodes : BTreeSet Nat) (locations : List (String × BTreeSet Nat)) (digest : Digest)
    : List (String × BTreeSet Nat) :=
  Rows.changeOrPush (·.1 == digest.text)
    (fun row => (row.1, nodes.toList.foldl (fun holders node => holders.insert node) row.2))
    (digest.text, nodes) locations

def withTag (tag : String) (row : String × ImageManifest) : String × ImageManifest :=
  (row.1, { row.2 with tags := row.2.tags.insert tag })

/-- The row of a content that the repository did not have: the committed tag is its only one. -/
def newRow (commit : ManifestCommit) (signature : Option ImageSignature)
    : String × ImageManifest :=
  (commit.manifest.digest.text, { commit.manifest with
    tags := (∅ : BTreeSet String).insert commit.tag, signature })

/-- Put the tag on the repository's own row for the content, a new one if it has none. -/
def addTag (commit : ManifestCommit) (signature : Option ImageSignature) : ManifestCatalog :=
  let repository := commit.manifest.repository
  let digest := commit.manifest.digest.text
  { catalog with
    tags := catalog.tags ++ [(tagKey repository commit.tag, digest)]
    manifests := Rows.changeOrPush (isRow repository digest) (withTag commit.tag)
      (newRow commit signature) catalog.manifests }

/-- Start or stop the expiry clock of the row that was tagged. -/
def setClock (commit : ManifestCommit) : ManifestCatalog :=
  let repository := commit.manifest.repository
  let digest := commit.manifest.digest.text
  let key := untaggedKey repository digest
  { catalog with
    untaggedAt :=
      if isDigestTag commit.tag then
        -- Pushed by digest only: untagged from the moment it arrives.
        if (catalog.getRepositoryManifest repository digest).any hasRealTag then
          catalog.untaggedAt
        else catalog.untaggedAt.insertIfNew key (unixMillis commit.manifest.pushedAt)
      else catalog.untaggedAt.erase key }

def inRepository (commit : ManifestCommit) (row : String × ImageManifest) : Bool :=
  row.2.repository == commit.manifest.repository

/-- The catalogue once the committed tag is off every row. -/
def untaggedFor (commit : ManifestCommit) : ManifestCatalog :=
  removeTag
    { catalog with
      tags := catalog.tags.filter (·.1 != tagKey commit.manifest.repository commit.tag) }
    (inRepository commit) commit.tag (unixMillis commit.manifest.pushedAt)

/-- The signature of a new copy: its own, or the one its content has, which signatures attest. -/
def committedSignature (commit : ManifestCommit) : Option ImageSignature :=
  commit.manifest.signature.or
    ((catalog.getManifest commit.manifest.digest.text).bind (·.signature))

/-- Apply a push: the tag moves to its manifest. -/
def applyManifestCommit (commit : ManifestCommit) : ManifestCatalog :=
  let tagged := ((catalog.untaggedFor commit).addTag commit
    (catalog.committedSignature commit)).setClock commit
  { tagged with
    layerLocations := commit.manifest.referencedDigests.foldl (addHolders commit.holderNodes)
      tagged.layerLocations }

/-- Remove a tag; the manifest stays. The answer says whether the tag existed. -/
def applyDeleteTag (delete : DeleteTag) : Bool × ManifestCatalog :=
  let key := tagKey delete.repository delete.tag
  match (catalog.tags.find? (·.1 == key)).map Prod.snd with
  | none => (false, catalog)
  | some digest =>
    (true, removeTag { catalog with tags := catalog.tags.filter (·.1 != key) }
      (isRow delete.repository digest) delete.tag delete.deletedAtUnixMs)

def applyAttachSignature (attach : AttachSignature) : Bool × ManifestCatalog :=
  let signed (row : String × ImageManifest) : Bool := row.1 == attach.manifestDigest.text
  (catalog.manifests.any signed, { catalog with
    manifests := catalog.manifests.map (fun row =>
      if signed row then (row.1, { row.2 with signature := some attach.signature }) else row) })

-- Holders

/-- Add one verified holder to an existing image; nothing when the image is not there. -/
def addManifestHolder (repository : String) (digest : Digest) (node : Nat)
    : Option ManifestCatalog :=
  (catalog.getRepositoryManifest repository digest.text).map (fun manifest =>
    { catalog with
      layerLocations := manifest.referencedDigests.foldl
        (addHolders ((∅ : BTreeSet Nat).insert node)) catalog.layerLocations })

/-- One nominated layer: approved when no manifest pins it and another node holds it, or when
nobody is known to. -/
def arbitrate (referenced : List String) (node : Nat)
    (sofar : List Digest × List (String × BTreeSet Nat)) (digest : Digest)
    : List Digest × List (String × BTreeSet Nat) :=
  if referenced.contains digest.text then sofar
  else
    match (sofar.2.find? (·.1 == digest.text)).map Prod.snd with
    | some holders =>
      if (holders.toList.filter (· != node)).length ≥ 1 then
        (sofar.1 ++ [digest], Rows.changeFirst (·.1 == digest.text)
          (fun row => (row.1, row.2.erase node)) sofar.2)
      else sofar
    | none => (sofar.1 ++ [digest], sofar.2)

/-- Decide which of a node's deletions are safe. -/
def applyGcReport (report : GcReport) : List Digest × ManifestCatalog :=
  let (approved, layerLocations) := report.deletedLayers.foldl
    (arbitrate catalog.referencedDigestSet report.nodeId) ([], catalog.layerLocations)
  (approved, { catalog with layerLocations })

def removeNodeHoldings (node : Nat) : ManifestCatalog :=
  { catalog with
    layerLocations := catalog.layerLocations.map (fun row => (row.1, row.2.erase node)) }

/-- Drop the holder records of `candidates` that no manifest pins any more. -/
def dropLocations (candidates : List String) : ManifestCatalog :=
  { catalog with
    layerLocations := catalog.layerLocations.filter (fun row =>
      !candidates.contains row.1 || catalog.referencedDigestSet.contains row.1) }

-- Retirement and expiry

/-- Remove a repository: its manifests, tags and clocks, and the layers that only it pinned. -/
def retireRepository (repository : String) : ManifestCatalog :=
  let retired (row : String × ImageManifest) : Bool := row.2.repository == repository
  let candidates := (catalog.manifests.filter retired).flatMap
    (fun row => row.2.referencedDigests.map (·.text))
  let pre := tagKey repository ""
  dropLocations
    { catalog with
      repositoryOwners := catalog.repositoryOwners.erase repository
      manifests := catalog.manifests.filter (fun row => !retired row)
      tags := catalog.tags.filter (fun row => !pre.toList.isPrefixOf row.1.toList)
      untaggedAt := catalog.untaggedAt.filter (fun key _ =>
        (rsplitOnce '@' key.toList).all (fun parts => parts.1 != repository.toList)) }
    candidates

/-- When a manifest lost its last real tag, if it has none now. -/
def untaggedSince (repository : String) (digest : Digest) : Option Nat :=
  catalog.untaggedAt[untaggedKey repository digest.text]?

def listsPlatform (repository : String) (digest : Digest) (row : String × ImageManifest)
    : Bool :=
  row.2.repository == repository && row.2.isIndex && row.2.digest != digest
    && row.2.layers.any (fun entry => entry.digest.text == digest.text)

/-- Why a manifest may not expire now, if it may not. -/
def expiryRefusal (expire : ExpireManifest) (pinned : BTreeSet String) : Option String :=
  match catalog.getRepositoryManifest expire.repository expire.digest.text with
  | none => some "manifest no longer exists"
  | some manifest =>
    if hasRealTag manifest then some "manifest is tagged"
    else if catalog.untaggedSince expire.repository expire.digest
        ≠ some expire.untaggedAtUnixMs then
      some "manifest was tagged or untagged again since expiry was planned"
    else if pinned.contains expire.digest.text then some "an app or job pins this image"
    else if catalog.manifests.any (listsPlatform expire.repository expire.digest) then
      some "manifest is a platform of a catalogued image index"
    else none

def expirableManifests (now retain : Nat) (pinned : BTreeSet String) : List ExpireManifest :=
  (catalog.manifests.filterMap (fun row =>
    (catalog.untaggedAt[untaggedKey row.2.repository row.1]?).bind (fun untaggedAt =>
      if now - untaggedAt ≥ retain then
        some ⟨row.2.repository, row.2.digest, untaggedAt⟩
      else none))).filter (fun expire => (catalog.expiryRefusal expire pinned).isNone)

/-- Remove a manifest that expired, unless it may not. -/
def applyExpireManifest (expire : ExpireManifest) (pinned : BTreeSet String)
    : Except String ManifestCatalog :=
  match catalog.expiryRefusal expire pinned with
  | some reason => .error reason
  | none =>
    let candidates := ((catalog.getRepositoryManifest expire.repository
      expire.digest.text).map (fun manifest =>
        manifest.referencedDigests.map (·.text))).getD []
    .ok (dropLocations
      { catalog with
        manifests := catalog.manifests.filter
          (fun row => !isRow expire.repository expire.digest.text row)
        untaggedAt := catalog.untaggedAt.erase
          (untaggedKey expire.repository expire.digest.text) }
      candidates)

-- Runs

end ManifestCatalog

/-- The calls of the catalogue. -/
inductive CatalogOp where
  | manifestCommit (commit : ManifestCommit)
  | deleteTag (delete : DeleteTag)
  | expireManifest (expire : ExpireManifest) (pinned : BTreeSet String)
  | retireRepository (repository : String)
  | addManifestHolder (repository : String) (digest : Digest) (node : Nat)
  | gcReport (report : GcReport)
  | removeNodeHoldings (node : Nat)

namespace ManifestCatalog

/-- A refused call changes nothing. -/
def step (catalog : ManifestCatalog) : CatalogOp → ManifestCatalog
  | .manifestCommit commit => catalog.applyManifestCommit commit
  | .deleteTag delete => (catalog.applyDeleteTag delete).2
  | .expireManifest expire pinned =>
    match catalog.applyExpireManifest expire pinned with
    | .ok next => next
    | .error _ => catalog
  | .retireRepository repository => catalog.retireRepository repository
  | .addManifestHolder repository digest node =>
    (catalog.addManifestHolder repository digest node).getD catalog
  | .gcReport report => (catalog.applyGcReport report).2
  | .removeNodeHoldings node => catalog.removeNodeHoldings node

def run (catalog : ManifestCatalog) (ops : List CatalogOp) : ManifestCatalog :=
  ops.foldl step catalog

end ManifestCatalog

end Reliaburger
