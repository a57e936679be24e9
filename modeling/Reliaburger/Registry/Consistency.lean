import Reliaburger.Registry.Soundness

/-! The catalogue's tables describe one relation: the tag rows and the manifests' tags are the
same, and exactly the pinned blobs have a holder record. An expiry may break the first part.
-/

namespace Reliaburger

namespace ManifestCatalog

-- Holder records

variable {catalog : ManifestCatalog}

theorem mem_referencedDigestSet {digest : String}
    : digest ∈ catalog.referencedDigestSet
      ↔ ∃ row ∈ catalog.manifests, digest ∈ row.2.referencedDigests.map (·.text) := by
  simp [referencedDigestSet]

/-- Exactly the pinned digests have a holder record, one each. -/
structure Located (catalog : ManifestCatalog) : Prop where
  unique : Rows.Unique Prod.fst catalog.layerLocations
  pinned : ∀ digest : String,
    digest ∈ catalog.layerLocations.map Prod.fst ↔ digest ∈ catalog.referencedDigestSet

section

variable {locations : List (String × BTreeSet Nat)} (unique : Rows.Unique Prod.fst locations)
  (nodes : BTreeSet Nat)
include unique

theorem mem_addHolders (digest : Digest)
    : Rows.Unique Prod.fst (addHolders nodes locations digest)
      ∧ ∀ key, key ∈ (addHolders nodes locations digest).map Prod.fst
        ↔ key ∈ locations.map Prod.fst ∨ key = digest.text := by
  have selects : ∀ row : String × BTreeSet Nat,
      (row.1 == digest.text) = true ↔ row.1 = (digest.text, nodes).1 := by simp
  refine ⟨unique.changeOrPush selects (fun _ _ => rfl), fun key => ?_⟩
  simp only [addHolders, List.mem_map, Rows.mem_changeOrPush unique selects]
  constructor
  · rintro ⟨row, ⟨old, listed, same, rfl⟩ | ⟨listed, _⟩ | ⟨rfl, _⟩, rfl⟩
    · exact .inl ⟨old, listed, rfl⟩
    · exact .inl ⟨row, listed, rfl⟩
    · exact .inr rfl
  · rintro (⟨row, listed, rfl⟩ | rfl)
    · by_cases same : row.1 = digest.text
      · exact ⟨_, .inl ⟨row, listed, same, rfl⟩, rfl⟩
      · exact ⟨row, .inr (.inl ⟨listed, same⟩), rfl⟩
    · by_cases present : ∃ row ∈ locations, row.1 = digest.text
      · obtain ⟨row, listed, same⟩ := present
        exact ⟨_, .inl ⟨row, listed, same, rfl⟩, same⟩
      · exact ⟨_, .inr (.inr ⟨rfl, fun old listed same => present ⟨old, listed, same⟩⟩), rfl⟩

theorem mem_foldl_addHolders (digests : List Digest)
    : Rows.Unique Prod.fst (digests.foldl (addHolders nodes) locations)
      ∧ ∀ key, key ∈ (digests.foldl (addHolders nodes) locations).map Prod.fst
        ↔ key ∈ locations.map Prod.fst ∨ key ∈ digests.map (·.text) := by
  induction digests generalizing locations with
  | nil => exact ⟨unique, by simp⟩
  | cons digest rest ih =>
    obtain ⟨still, first⟩ := mem_addHolders unique nodes digest
    obtain ⟨final, later⟩ := ih still
    refine ⟨final, fun key => ?_⟩
    rw [List.foldl_cons, later, first, List.map_cons, List.mem_cons, or_assoc]

end

/-- Collection moves holders, never records. -/
theorem keys_arbitrate (referenced : List String) (node : Nat)
    (sofar : List Digest × List (String × BTreeSet Nat)) (digest : Digest)
    : (arbitrate referenced node sofar digest).2.map Prod.fst = sofar.2.map Prod.fst := by
  unfold arbitrate
  split
  · rfl
  split
  · split
    · refine Rows.map_changeFirst ?_ _
      exact fun _ _ => rfl
    · rfl
  · rfl

theorem keys_applyGcReport (catalog : ManifestCatalog) (report : GcReport)
    : (catalog.applyGcReport report).2.layerLocations.map Prod.fst
      = catalog.layerLocations.map Prod.fst := by
  unfold applyGcReport
  simp only
  suffices folds : ∀ (digests : List Digest) (sofar : List Digest × List (String × BTreeSet Nat)),
      (digests.foldl (arbitrate catalog.referencedDigestSet report.nodeId) sofar).2.map Prod.fst
      = sofar.2.map Prod.fst from folds report.deletedLayers ([], catalog.layerLocations)
  intro digests
  induction digests with
  | nil => exact fun _ => rfl
  | cons digest rest ih => exact fun sofar => (ih _).trans (keys_arbitrate _ _ sofar digest)

/-- Changes that keep the records' digests and what is pinned. -/
theorem Located.of_same {next : ManifestCatalog} (located : catalog.Located)
    (keys : next.layerLocations.map Prod.fst = catalog.layerLocations.map Prod.fst)
    (pins : ∀ digest, digest ∈ next.referencedDigestSet ↔ digest ∈ catalog.referencedDigestSet)
    : next.Located where
  unique := by
    unfold Rows.Unique
    rw [keys]
    exact located.unique
  pinned digest := by rw [keys, pins, located.pinned]

/-- Rows that leave take the records of what only they pinned. -/
theorem Located.dropLocations {rest : ManifestCatalog} (located : catalog.Located)
    {keep : String × ImageManifest → Bool} {candidates : List String}
    (manifests : rest.manifests = catalog.manifests.filter keep)
    (locations : rest.layerLocations = catalog.layerLocations)
    (left : ∀ row ∈ catalog.manifests, keep row = false
      → ∀ digest ∈ row.2.referencedDigests.map (·.text), digest ∈ candidates)
    : (rest.dropLocations candidates).Located where
  unique := by
    show Rows.Unique Prod.fst (rest.layerLocations.filter _)
    rw [locations]
    exact located.unique.filter _
  pinned digest := by
    have pins : (rest.dropLocations candidates).referencedDigestSet = rest.referencedDigestSet :=
      rfl
    rw [pins]
    have listed : digest ∈ (rest.dropLocations candidates).layerLocations.map Prod.fst
        ↔ digest ∈ catalog.layerLocations.map Prod.fst
          ∧ (digest ∉ candidates ∨ digest ∈ rest.referencedDigestSet) := by
      simp only [ManifestCatalog.dropLocations, locations, List.mem_map, List.mem_filter]
      constructor
      · rintro ⟨row, ⟨member, kept⟩, rfl⟩
        exact ⟨⟨row, member, rfl⟩, by simpa using kept⟩
      · rintro ⟨⟨row, member, rfl⟩, kept⟩
        exact ⟨row, ⟨member, by simpa using kept⟩, rfl⟩
    rw [listed, located.pinned]
    constructor
    · rintro ⟨before, kept⟩
      obtain ⟨row, member, referenced⟩ := mem_referencedDigestSet.mp before
      cases keeps : keep row with
      | true =>
        refine mem_referencedDigestSet.mpr ⟨row, ?_, referenced⟩
        rw [manifests]
        exact List.mem_filter.mpr ⟨member, keeps⟩
      | false => exact kept.resolve_left (fun absent => absent (left row member keeps _ referenced))
    · intro after
      refine ⟨?_, .inr after⟩
      obtain ⟨row, member, referenced⟩ := mem_referencedDigestSet.mp after
      rw [manifests] at member
      exact mem_referencedDigestSet.mpr ⟨row, (List.mem_filter.mp member).1, referenced⟩

/-- A push of content that the repository has pushes the same layers. -/
def SameContent (catalog : ManifestCatalog) (commit : ManifestCommit) : Prop :=
  ∀ row ∈ catalog.manifests, row.2.repository = commit.manifest.repository
    → row.2.digest = commit.manifest.digest
    → row.2.config = commit.manifest.config ∧ row.2.layers = commit.manifest.layers

/-- A push records holders for the layers that it pins. -/
theorem Located.commit (located : catalog.Located) (sound : catalog.Sound) {commit : ManifestCommit}
    (same : catalog.SameContent commit)
    : (catalog.applyManifestCommit commit).Located := by
  obtain ⟨unique, keys⟩ := mem_foldl_addHolders located.unique commit.holderNodes
    commit.manifest.referencedDigests
  refine ⟨unique, fun digest => ?_⟩
  show digest ∈ (commit.manifest.referencedDigests.foldl (addHolders commit.holderNodes)
    catalog.layerLocations).map Prod.fst ↔ _
  rw [keys, located.pinned, mem_referencedDigestSet, mem_referencedDigestSet]
  have content : ∀ row ∈ catalog.manifests,
      rowKey row = (commit.manifest.repository, commit.manifest.digest.text)
      → row.2.referencedDigests = commit.manifest.referencedDigests := by
    intro row listed isMine
    simp only [rowKey, Prod.mk.injEq] at isMine
    have isDigest : row.2.digest = commit.manifest.digest := by
      have texts := (sound.stored row listed).symm.trans isMine.2
      cases first : row.2.digest
      cases second : commit.manifest.digest
      simp_all
    obtain ⟨config, layers⟩ := same row listed isMine.1 isDigest
    simp only [ImageManifest.referencedDigests, ImageManifest.allDigests, isDigest, config, layers]
  constructor
  · rintro (⟨row, listed, referenced⟩ | mine)
    · by_cases isMine : rowKey row = (commit.manifest.repository, commit.manifest.digest.text)
      · exact ⟨_, (mem_commit sound commit).mpr (.inl ⟨row, listed, isMine, rfl⟩),
          by simpa using referenced⟩
      · exact ⟨_, (mem_commit sound commit).mpr (.inr (.inl ⟨row, listed, isMine, rfl⟩)),
          by simpa using referenced⟩
    · by_cases present : ∃ row ∈ catalog.manifests,
          rowKey row = (commit.manifest.repository, commit.manifest.digest.text)
      · obtain ⟨row, listed, isMine⟩ := present
        refine ⟨_, (mem_commit sound commit).mpr (.inl ⟨row, listed, isMine, rfl⟩), ?_⟩
        rw [← content row listed isMine] at mine
        simpa using mine
      · refine ⟨_, (mem_commit sound commit).mpr (.inr (.inr ⟨rfl, ?_⟩)), mine⟩
        exact fun old listed isMine => present ⟨old, listed, isMine⟩
  · rintro ⟨_, listed, referenced⟩
    rcases (mem_commit sound commit).mp listed with
      ⟨old, member, _, rfl⟩ | ⟨old, member, _, rfl⟩ | ⟨rfl, _⟩
    · exact .inl ⟨old, member, by simpa using referenced⟩
    · exact .inl ⟨old, member, by simpa using referenced⟩
    · exact .inr referenced

/-- The tag table says what the rows say. -/
def TagsAgree (catalog : ManifestCatalog) : Prop :=
  ∀ key digest : String, (key, digest) ∈ catalog.tags
    ↔ ∃ row ∈ catalog.manifests,
        row.1 = digest ∧ ∃ tag, tag ∈ row.2.tags ∧ tagKey row.2.repository tag = key

/-- No repository name has a colon. -/
def PlainRows (catalog : ManifestCatalog) : Prop :=
  ∀ row ∈ catalog.manifests, PlainName row.2.repository

section

variable (agree : catalog.TagsAgree)
include agree

/-- Removing a tag row, together with the tag of every row that carries it, keeps the two in
step. -/
theorem TagsAgree.removeTag (plain : catalog.PlainRows)
    {repository tag : String} (named : PlainName repository) {loses : String × ImageManifest → Bool}
    (time : Nat)
    (losers : ∀ row ∈ catalog.manifests, loses row = true → row.2.repository = repository)
    (carriers : ∀ row ∈ catalog.manifests, row.2.repository = repository → tag ∈ row.2.tags
      → loses row = true)
    : (ManifestCatalog.removeTag
        { catalog with tags := catalog.tags.filter (·.1 != tagKey repository tag) }
        loses tag time).TagsAgree := by
  intro key digest
  have rows : (key, digest) ∈ catalog.tags.filter (·.1 != tagKey repository tag)
      ↔ (key, digest) ∈ catalog.tags ∧ key ≠ tagKey repository tag := by
    simp [List.mem_filter]
  refine rows.trans ?_
  rw [agree key digest]
  constructor
  · rintro ⟨⟨row, listed, isDigest, other, member, rfl⟩, different⟩
    refine ⟨_, List.mem_map_of_mem listed, by simpa using isDigest, other, ?_, by simp⟩
    refine mem_withoutTag_tags.mpr ⟨member, ?_⟩
    rintro ⟨loser, rfl⟩
    exact different (by rw [losers row listed loser])
  · rintro ⟨_, listed, isDigest, other, member, isKey⟩
    obtain ⟨before, old, rfl⟩ := List.mem_map.mp listed
    rw [withoutTag_fst] at isDigest
    rw [withoutTag_repository] at isKey
    obtain ⟨carried, kept⟩ := mem_withoutTag_tags.mp member
    refine ⟨⟨before, old, isDigest, other, carried, isKey⟩, fun same => kept ?_⟩
    obtain ⟨isRepository, rfl⟩ := tagKey_inj (plain before old) named (isKey.trans same)
    exact ⟨carriers before old isRepository carried, rfl⟩

/-- A push moves its tag in both. -/
theorem TagsAgree.commit (sound : catalog.Sound)
    (plain : catalog.PlainRows) {commit : ManifestCommit}
    (named : PlainName commit.manifest.repository)
    : (catalog.applyManifestCommit commit).TagsAgree := by
  have untagged : (catalog.untaggedFor commit).TagsAgree :=
    agree.removeTag plain named _ (fun row _ loser => by simpa [inRepository] using loser)
      (fun row _ here _ => by simp [inRepository, here])
  have rows := sound.untaggedFor commit
  obtain ⟨mine, listed, isMine, tagged⟩ := addTag_row rows.rows commit
    (catalog.committedSignature commit)
  simp only [rowKey, newRow, Prod.mk.injEq] at isMine
  intro key digest
  have pushed : (key, digest) ∈ (catalog.applyManifestCommit commit).tags
      ↔ (key, digest) ∈ (catalog.untaggedFor commit).tags
        ∨ (key, digest)
          = (tagKey commit.manifest.repository commit.tag, commit.manifest.digest.text) := by
    show (key, digest) ∈ (catalog.untaggedFor commit).tags ++ [_] ↔ _
    rw [List.mem_append, List.mem_singleton]
  rw [pushed, untagged key digest]
  show _ ↔ ∃ row ∈ ((catalog.untaggedFor commit).addTag commit
    (catalog.committedSignature commit)).manifests, _
  constructor
  · rintro (⟨row, member, isDigest, tag, carried, isKey⟩ | same)
    · by_cases isRow : rowKey row = rowKey (newRow commit (catalog.committedSignature commit))
      · exact ⟨_, (mem_addTag rows.rows commit _).mpr (.inl ⟨row, member, isRow, rfl⟩), isDigest,
          tag, mem_withTag_tags.mpr (.inr carried), isKey⟩
      · exact ⟨row, (mem_addTag rows.rows commit _).mpr (.inr (.inl ⟨member, isRow⟩)), isDigest,
          tag, carried, isKey⟩
    · cases same
      exact ⟨mine, listed, isMine.2, _, tagged, by rw [isMine.1]⟩
  · rintro ⟨row, member, isDigest, tag, carried, isKey⟩
    rcases (mem_addTag rows.rows commit _).mp member with
      ⟨old, before, same, rfl⟩ | ⟨before, _⟩ | ⟨rfl, _⟩
    · simp only [rowKey, newRow, Prod.mk.injEq] at same
      rcases mem_withTag_tags.mp carried with rfl | earlier
      · right
        rw [← isKey, ← isDigest]
        simp only [withTag, same.1, same.2]
      · exact .inl ⟨old, before, isDigest, tag, earlier, isKey⟩
    · exact .inl ⟨row, before, isDigest, tag, carried, isKey⟩
    · right
      rw [← isKey, ← isDigest, mem_newRow_tags.mp carried]
      rfl

theorem TagsAgree.deleteTag (sound : catalog.Sound)
    (plain : catalog.PlainRows) {delete : DeleteTag} (named : PlainName delete.repository)
    : (catalog.applyDeleteTag delete).2.TagsAgree := by
  unfold applyDeleteTag
  simp only
  split
  · exact agree
  rename_i found
  obtain ⟨tagRow, isFirst, rfl⟩ := Option.map_eq_some_iff.mp found
  have isKey : tagRow.1 = tagKey delete.repository delete.tag := by
    simpa using List.find?_some isFirst
  refine agree.removeTag plain named _ (fun row _ loser => ?_) (fun row listed here carried => ?_)
  · have isMine := isRow_iff.mp loser
    simp only [rowKey, Prod.mk.injEq] at isMine
    exact isMine.1
  · -- A row that carries the tag has its own tag row, and the key has only one.
    have own : (tagKey row.2.repository delete.tag, row.1) ∈ catalog.tags :=
      (agree _ _).mpr ⟨row, listed, rfl, delete.tag, carried, rfl⟩
    have same := sound.tagRows.eq own (List.mem_of_find?_eq_some isFirst) (by
      rw [isKey, here])
    refine isRow_iff.mpr ?_
    simp only [rowKey, here, ← same]

theorem TagsAgree.retire (plain : catalog.PlainRows)
    {repository : String} (named : PlainName repository)
    : (catalog.retireRepository repository).TagsAgree := by
  intro key digest
  have tags : (key, digest) ∈ (catalog.retireRepository repository).tags
      ↔ (key, digest) ∈ catalog.tags
        ∧ (tagKey repository "").toList.isPrefixOf key.toList = false := by
    show (key, digest) ∈ catalog.tags.filter _ ↔ _
    simp [List.mem_filter]
  have rows : ∀ row, row ∈ (catalog.retireRepository repository).manifests
      ↔ row ∈ catalog.manifests ∧ row.2.repository ≠ repository := by
    intro row
    show row ∈ catalog.manifests.filter _ ↔ _
    simp [List.mem_filter]
  rw [tags, agree key digest]
  constructor
  · rintro ⟨⟨row, listed, isDigest, tag, carried, rfl⟩, outside⟩
    refine ⟨row, (rows row).mpr ⟨listed, fun same => ?_⟩, isDigest, tag, carried, rfl⟩
    rw [(tagKey_isPrefix named (plain row listed)).mpr same.symm] at outside
    cases outside
  · rintro ⟨row, listed, isDigest, tag, carried, rfl⟩
    obtain ⟨before, different⟩ := (rows row).mp listed
    refine ⟨⟨row, before, isDigest, tag, carried, rfl⟩, ?_⟩
    rw [← Bool.not_eq_true, tagKey_isPrefix named (plain row before)]
    exact fun same => different same.symm

end

/-- Expiry leaves the tag rows alone, so it must not take a row that has one. -/
theorem TagsAgree.expire {next : ManifestCatalog} (agree : catalog.TagsAgree)
    (sound : catalog.Sound) {expire : ExpireManifest} {pinned : BTreeSet String}
    (expired : catalog.applyExpireManifest expire pinned = .ok next)
    (bare : ∀ manifest, catalog.getRepositoryManifest expire.repository expire.digest.text
      = some manifest → ∀ tag, tag ∉ manifest.tags)
    : next.TagsAgree := by
  obtain ⟨_, _, _, rfl⟩ := applyExpireManifest_ok expired
  intro key digest
  refine (agree key digest).trans ⟨?_, ?_⟩
  · rintro ⟨row, listed, isDigest, tag, carried, isKey⟩
    refine ⟨row, List.mem_filter.mpr ⟨listed, ?_⟩, isDigest, tag, carried, isKey⟩
    rw [Bool.not_eq_true']
    refine Bool.eq_false_iff.mpr (fun isExpired => ?_)
    have mine := isRow_iff.mp isExpired
    simp only [rowKey, Prod.mk.injEq] at mine
    have found := sound.getRepositoryManifest_eq listed
    rw [mine.1, mine.2] at found
    exact bare row.2 found tag carried
  · rintro ⟨row, listed, rest⟩
    exact ⟨row, (List.mem_filter.mp listed).1, rest⟩

end ManifestCatalog

-- Runs

namespace CatalogOp

/-- The repository that a call names has no colon. -/
def Plain : CatalogOp → Prop
  | manifestCommit commit => PlainName commit.manifest.repository
  | deleteTag delete => PlainName delete.repository
  | retireRepository repository => PlainName repository
  | _ => True

/-- Equal digests mean equal content. -/
def ContentAddressed (ops : List CatalogOp) : Prop :=
  ∀ first second : ManifestCommit, manifestCommit first ∈ ops → manifestCommit second ∈ ops
    → first.manifest.digest = second.manifest.digest
    → first.manifest.config = second.manifest.config
      ∧ first.manifest.layers = second.manifest.layers

/-- The call expires no manifest that still carries a tag. -/
def SparesTagged (catalog : ManifestCatalog) : CatalogOp → Prop
  | expireManifest expire pinned =>
    catalog.expiryRefusal expire pinned = none
    → ∀ manifest, catalog.getRepositoryManifest expire.repository expire.digest.text
        = some manifest → ∀ tag, tag ∉ manifest.tags
  | _ => True

end CatalogOp

namespace ManifestCatalog

def Committed (ops : List CatalogOp) (catalog : ManifestCatalog) : Prop :=
  ∀ row ∈ catalog.manifests, PlainName row.2.repository
    ∧ ∃ commit, .manifestCommit commit ∈ ops
      ∧ commit.manifest.digest = row.2.digest
      ∧ commit.manifest.config = row.2.config
      ∧ commit.manifest.layers = row.2.layers

/-- Rows of the same repository with the same content. -/
def Alike (row other : String × ImageManifest) : Prop :=
  row.2.repository = other.2.repository ∧ row.2.digest = other.2.digest
    ∧ row.2.config = other.2.config ∧ row.2.layers = other.2.layers

theorem alike_withoutTag (loses : String × ImageManifest → Bool) (tag : String)
    (row : String × ImageManifest)
    : Alike row (withoutTag loses tag row) := by
  unfold withoutTag
  split <;> exact ⟨rfl, rfl, rfl, rfl⟩

/-- A call adds no row but a commit's own. -/
theorem step_rows {catalog : ManifestCatalog} (sound : catalog.Sound) (op : CatalogOp)
    : ∀ row ∈ (catalog.step op).manifests,
        (∃ old ∈ catalog.manifests, Alike old row)
        ∨ ∃ commit, op = .manifestCommit commit
          ∧ row = newRow commit (catalog.committedSignature commit) := by
  have kept : ∀ row ∈ catalog.manifests, ∃ old ∈ catalog.manifests, Alike old row :=
    fun row listed => ⟨row, listed, rfl, rfl, rfl, rfl⟩
  intro row listed
  cases op with
  | manifestCommit commit =>
    rcases (mem_commit sound commit).mp listed with
      ⟨old, member, _, rfl⟩ | ⟨old, member, _, rfl⟩ | ⟨rfl, _⟩
    · exact .inl ⟨old, member, alike_withoutTag _ _ old⟩
    · exact .inl ⟨old, member, alike_withoutTag _ _ old⟩
    · exact .inr ⟨commit, rfl, rfl⟩
  | deleteTag delete =>
    simp only [ManifestCatalog.step, applyDeleteTag] at listed
    split at listed
    · exact .inl (kept row listed)
    · obtain ⟨old, member, rfl⟩ := List.mem_map.mp listed
      exact .inl ⟨old, member, alike_withoutTag _ _ old⟩
  | expireManifest expire pinned =>
    simp only [step] at listed
    split at listed
    · rename_i expired
      obtain ⟨_, _, _, rfl⟩ := applyExpireManifest_ok expired
      exact .inl (kept row (List.mem_filter.mp listed).1)
    · exact .inl (kept row listed)
  | retireRepository repository => exact .inl (kept row (List.mem_filter.mp listed).1)
  | addManifestHolder repository digest node =>
    simp only [step, addManifestHolder] at listed
    cases found : catalog.getRepositoryManifest repository digest.text with
    | none =>
      rw [found] at listed
      exact .inl (kept row listed)
    | some manifest =>
      rw [found] at listed
      exact .inl (kept row listed)
  | gcReport | removeNodeHoldings => exact .inl (kept row listed)

theorem Committed.step {ops : List CatalogOp} {catalog : ManifestCatalog}
    (committed : Committed ops catalog) (sound : catalog.Sound) {op : CatalogOp}
    (member : op ∈ ops) (plain : op.Plain)
    : Committed ops (catalog.step op) := by
  intro row listed
  rcases step_rows sound op row listed with
    ⟨old, before, repository, digest, config, layers⟩ | ⟨commit, rfl, rfl⟩
  · obtain ⟨named, commit, made, sameDigest, sameConfig, sameLayers⟩ := committed old before
    exact ⟨repository ▸ named, commit, made, sameDigest.trans digest, sameConfig.trans config,
      sameLayers.trans layers⟩
  · exact ⟨plain, commit, member, rfl, rfl, rfl⟩

theorem Located.step {ops : List CatalogOp} {catalog : ManifestCatalog}
    (located : catalog.Located) (sound : catalog.Sound) (committed : Committed ops catalog)
    (addressed : CatalogOp.ContentAddressed ops) {op : CatalogOp} (member : op ∈ ops)
    : (catalog.step op).Located := by
  cases op with
  | manifestCommit commit =>
    refine located.commit sound (fun row listed _ isDigest => ?_)
    obtain ⟨_, earlier, made, digest, config, layers⟩ := committed row listed
    obtain ⟨sameConfig, sameLayers⟩ := addressed earlier commit made member
      (digest.trans isDigest)
    exact ⟨config.symm.trans sameConfig, layers.symm.trans sameLayers⟩
  | deleteTag delete =>
    simp only [ManifestCatalog.step, applyDeleteTag]
    split
    · exact located
    refine located.of_same rfl (fun digest => ?_)
    simp only [mem_referencedDigestSet]
    constructor
    · rintro ⟨row, listed, referenced⟩
      obtain ⟨old, before, rfl⟩ := List.mem_map.mp listed
      exact ⟨old, before, by simpa using referenced⟩
    · rintro ⟨row, listed, referenced⟩
      exact ⟨_, List.mem_map_of_mem listed, by simpa using referenced⟩
  | expireManifest expire pinned =>
    simp only [ManifestCatalog.step]
    split
    · rename_i expired
      obtain ⟨manifest, found, _, rfl⟩ := applyExpireManifest_ok expired
      refine located.dropLocations rfl rfl (fun row listed gone digest referenced => ?_)
      have isMine := isRow_iff.mp (by simpa using gone)
      simp only [rowKey, Prod.mk.injEq] at isMine
      have same := sound.getRepositoryManifest_eq listed
      rw [isMine.1, isMine.2, found] at same
      cases same
      exact referenced
    · exact located
  | retireRepository repository =>
    refine located.dropLocations rfl rfl (fun row listed gone digest referenced => ?_)
    refine List.mem_flatMap.mpr ⟨row, List.mem_filter.mpr ⟨listed, ?_⟩, referenced⟩
    simpa using gone
  | addManifestHolder repository digest node =>
    simp only [ManifestCatalog.step, addManifestHolder]
    cases found : catalog.getRepositoryManifest repository digest.text with
    | none => exact located
    | some manifest =>
      obtain ⟨listed, _⟩ := getRepositoryManifest_some found
      obtain ⟨unique, keys⟩ := mem_foldl_addHolders located.unique
        ((∅ : BTreeSet Nat).insert node) manifest.referencedDigests
      refine ⟨unique, fun key => (keys key).trans ?_⟩
      rw [located.pinned]
      refine ⟨fun either => either.elim id (fun mine => ?_), .inl⟩
      exact mem_referencedDigestSet.mpr ⟨_, listed, mine⟩
  | gcReport report => exact located.of_same (keys_applyGcReport catalog report) (fun _ => Iff.rfl)
  | removeNodeHoldings node =>
    refine located.of_same ?_ (fun _ => Iff.rfl)
    simp [ManifestCatalog.step, removeNodeHoldings]

/-- Every call keeps the tag table and the rows in agreement. -/
theorem TagsAgree.step {catalog : ManifestCatalog} (agree : catalog.TagsAgree)
    (sound : catalog.Sound) (plain : catalog.PlainRows) {op : CatalogOp} (named : op.Plain)
    (spares : op.SparesTagged catalog)
    : (catalog.step op).TagsAgree := by
  cases op with
  | manifestCommit commit => exact agree.commit sound plain named
  | deleteTag delete => exact agree.deleteTag sound plain named
  | expireManifest expire pinned =>
    simp only [ManifestCatalog.step]
    split
    · rename_i expired
      obtain ⟨_, _, accepted, _⟩ := applyExpireManifest_ok expired
      exact agree.expire sound expired (spares accepted)
    · exact agree
  | retireRepository repository => exact agree.retire plain named
  | addManifestHolder repository digest node =>
    simp only [ManifestCatalog.step, addManifestHolder]
    cases catalog.getRepositoryManifest repository digest.text <;> exact agree
  | gcReport report => exact agree
  | removeNodeHoldings node => exact agree

/-- Every call of a run meets a condition on the catalogue it is made on. -/
def Meets (condition : ManifestCatalog → CatalogOp → Prop)
    : ManifestCatalog → List CatalogOp → Prop
  | _, [] => True
  | catalog, op :: rest => condition catalog op ∧ Meets condition (catalog.step op) rest

/-- In every run, rows and tag rows are unique, the manifests without a real tag are those with a
clock, and the pinned digests are those with a holder record; and while no expiry takes a manifest
that still carries a tag, the tag rows are the manifests' tags. -/
theorem tables_describe_one_relation {ops : List CatalogOp} (plain : ∀ op ∈ ops, op.Plain)
    (addressed : CatalogOp.ContentAddressed ops)
    : let catalog := ManifestCatalog.run {} ops
      Rows.Unique rowKey catalog.manifests
      ∧ Rows.Unique Prod.fst catalog.tags
      ∧ (∀ key : String, key ∈ catalog.untaggedAt
        ↔ ∃ row ∈ catalog.manifests,
            untaggedKey row.2.repository row.1 = key ∧ hasRealTag row.2 = false)
      ∧ Rows.Unique Prod.fst catalog.layerLocations
      ∧ (∀ digest : String, digest ∈ catalog.layerLocations.map Prod.fst
        ↔ digest ∈ catalog.referencedDigestSet)
      ∧ (Meets (fun catalog op => op.SparesTagged catalog) {} ops
        → ∀ repository tag digest : String, PlainName repository
          → ((tagKey repository tag, digest) ∈ catalog.tags
            ↔ ∃ manifest, catalog.getRepositoryManifest repository digest = some manifest
              ∧ tag ∈ manifest.tags)) := by
  intro catalog
  -- The invariants go along the run together; the catalogue it starts from is arbitrary.
  have invariant : ∀ (rest : List CatalogOp) (start : ManifestCatalog),
      (∀ op ∈ rest, op ∈ ops) → start.Sound → start.Located → Committed ops start
      → (start.run rest).Sound ∧ (start.run rest).Located
        ∧ (start.run rest).PlainRows
        ∧ (start.TagsAgree → Meets (fun catalog op => op.SparesTagged catalog) start rest
          → (start.run rest).TagsAgree) := by
    intro rest
    induction rest with
    | nil =>
      intro start _ sound located committed
      exact ⟨sound, located, fun row listed => (committed row listed).1, fun agree _ => agree⟩
    | cons op rest ih =>
      intro start within sound located committed
      have member := within op List.mem_cons_self
      obtain ⟨finalSound, finalLocated, finalPlain, finalAgree⟩ := ih (start.step op)
        (List.forall_mem_cons.mp within).2 (sound.step op)
        (located.step sound committed addressed member)
        (committed.step sound member (plain op member))
      refine ⟨finalSound, finalLocated, finalPlain, fun agree spares => ?_⟩
      refine finalAgree (agree.step sound ?_ (plain op member) spares.1) spares.2
      exact fun row listed => (committed row listed).1
  have empty : ({} : ManifestCatalog).Located := ⟨List.nodup_nil, by simp [referencedDigestSet]⟩
  obtain ⟨sound, located, named, agree⟩ := invariant ops {} (fun _ member => member) Sound.empty
    empty (by simp [Committed])
  refine ⟨sound.rows, sound.tagRows, sound.clocks, located.unique, located.pinned, ?_⟩
  intro spares repository tag digest isPlain
  rw [agree (by simp [TagsAgree]) spares]
  constructor
  · rintro ⟨row, listed, rfl, _, carried, isKey⟩
    obtain ⟨rfl, rfl⟩ := tagKey_inj (named row listed) isPlain isKey
    exact ⟨row.2, sound.getRepositoryManifest_eq listed, carried⟩
  · rintro ⟨manifest, found, carried⟩
    obtain ⟨listed, rfl⟩ := getRepositoryManifest_some found
    exact ⟨_, listed, rfl, tag, carried, rfl⟩

-- A tag row without its manifest

def sampleDigest : Digest :=
  ⟨"sha256:0123456789abcdef0123456789abcdef0123456789abcdef0123456789abcdef", by decide +kernel⟩

/-- An image pushed five milliseconds after the epoch. -/
def sampleManifest : ImageManifest where
  digest := sampleDigest
  config := ⟨sampleDigest, 2, "application/vnd.oci.image.config.v1+json", none⟩
  layers := []
  repository := "web"
  totalSize := 2
  pushedAt := 5000000
  pushedBy := 1

def sampleCommit (tag : String) : ManifestCommit where
  observedGcGeneration := 0
  manifest := sampleManifest
  tag
  holderNodes := (∅ : BTreeSet Nat).insert 1

def pushedByDigest : List CatalogOp :=
  [.manifestCommit (sampleCommit sampleDigest.text),
    .expireManifest ⟨"web", sampleDigest, 5⟩ ∅]

/-- The expired manifest is gone, and its digest still has a tag row. -/
theorem expired_digest_keeps_its_tag_row
    : (∀ op ∈ pushedByDigest, op.Plain)
      ∧ CatalogOp.ContentAddressed pushedByDigest
      ∧ ¬∀ repository tag digest : String, PlainName repository
        → ((tagKey repository tag, digest) ∈ (ManifestCatalog.run {} pushedByDigest).tags
          ↔ ∃ manifest,
              (ManifestCatalog.run {} pushedByDigest).getRepositoryManifest repository digest
                = some manifest
              ∧ tag ∈ manifest.tags) := by
  refine ⟨?_, ?_, fun agree => ?_⟩
  · simp only [pushedByDigest, List.forall_mem_cons, CatalogOp.Plain, PlainName]
    exact ⟨by decide +kernel, trivial, by simp⟩
  · intro first second inFirst inSecond _
    simp only [pushedByDigest, List.mem_cons, CatalogOp.manifestCommit.injEq, reduceCtorEq,
      List.not_mem_nil, or_false] at inFirst inSecond
    rw [inFirst, inSecond]
    exact ⟨rfl, rfl⟩
  · have row : (tagKey "web" sampleDigest.text, sampleDigest.text)
        ∈ (ManifestCatalog.run {} pushedByDigest).tags := by
      decide +kernel
    have gone : (run {} pushedByDigest).getRepositoryManifest "web"
        sampleDigest.text = none := by
      decide +kernel
    obtain ⟨_, found, _⟩ := (agree "web" sampleDigest.text sampleDigest.text
      (by decide +kernel)).mp row
    rw [gone] at found
    cases found

def untaggedThenExpired : List CatalogOp :=
  [.manifestCommit (sampleCommit "v1"), .deleteTag ⟨"web", "v1", 7⟩,
    .expireManifest ⟨"web", sampleDigest, 7⟩ ∅]

/-- Nothing of the expired manifest stays behind. -/
theorem untaggedThenExpired_leaves_no_tag_row
    : (tagKey "web" "v1", sampleDigest.text)
      ∉ (ManifestCatalog.run {} untaggedThenExpired).tags := by
  have plain : ∀ op ∈ untaggedThenExpired, op.Plain := by
    simp only [untaggedThenExpired, List.forall_mem_cons, CatalogOp.Plain, PlainName]
    exact ⟨by decide +kernel, by decide +kernel, trivial, by simp⟩
  have addressed : CatalogOp.ContentAddressed untaggedThenExpired := by
    intro first second inFirst inSecond _
    simp only [untaggedThenExpired, List.mem_cons, CatalogOp.manifestCommit.injEq, reduceCtorEq,
      List.not_mem_nil, or_false] at inFirst inSecond
    rw [inFirst, inSecond]
    exact ⟨rfl, rfl⟩
  have spares : Meets (fun catalog op => op.SparesTagged catalog) {} untaggedThenExpired := by
    refine ⟨trivial, trivial, fun _ manifest found tag carried => ?_, trivial⟩
    have bare : (((run {} [.manifestCommit (sampleCommit "v1"),
        .deleteTag ⟨"web", "v1", 7⟩]).getRepositoryManifest "web" sampleDigest.text).map
          (fun manifest => manifest.tags.toList)) = some [] := by
      decide +kernel
    rw [show (run {} [.manifestCommit (sampleCommit "v1"),
      .deleteTag ⟨"web", "v1", 7⟩]).getRepositoryManifest "web" sampleDigest.text
      = some manifest from found] at bare
    simp only [Option.map_some, Option.some.injEq] at bare
    have listed := Std.ExtTreeSet.mem_toList.mpr carried
    rw [bare] at listed
    cases listed
  intro row
  obtain ⟨_, found, _⟩ := ((tables_describe_one_relation plain addressed).2.2.2.2.2 spares
    "web" "v1" sampleDigest.text (by decide +kernel)).mp row
  have gone : (run {} untaggedThenExpired).getRepositoryManifest "web"
      sampleDigest.text = none := by
    decide +kernel
  rw [gone] at found
  cases found

end ManifestCatalog

end Reliaburger
