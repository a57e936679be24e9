import Reliaburger.Registry.Catalog

/-! Every row of the catalogue is kept under its own digest, no row is there twice, and exactly
the manifests without a real tag have an expiry clock.
-/

namespace Reliaburger

open BTreeMap

-- Keys

theorem rsplitOnce_append {separator : Char} {after : List Char} (absent : separator ∉ after)
    (before : List Char)
    : rsplitOnce separator (before ++ separator :: after) = some (before, after) := by
  have reversed : (before ++ separator :: after).reverse
      = after.reverse ++ separator :: before.reverse := by simp
  have later : separator ∉ after.reverse := by simpa using absent
  simp only [rsplitOnce, reversed, splitOnce_append later, Option.map_some, List.reverse_reverse]

theorem tagKey_toList (repository tag : String)
    : (tagKey repository tag).toList = repository.toList ++ ':' :: tag.toList := by
  simp [tagKey, String.toList_append]

/-- A repository name without a colon, as the registry accepts them. -/
def PlainName (repository : String) : Prop :=
  ':' ∉ repository.toList

instance (repository : String) : Decidable (PlainName repository) :=
  inferInstanceAs (Decidable (_ ∉ _))

variable {other repository : String}

/-- A tag key tells the repository and the tag. -/
theorem tagKey_inj {tag otherTag : String} (plain : PlainName repository)
    (otherPlain : PlainName other) (same : tagKey repository tag = tagKey other otherTag)
    : repository = other ∧ tag = otherTag := by
  have split := splitOnce_append plain tag.toList
  rw [← tagKey_toList, same, tagKey_toList, splitOnce_append otherPlain] at split
  simp only [Option.some.injEq, Prod.mk.injEq, String.toList_inj] at split
  exact ⟨split.1.symm, split.2.symm⟩

/-- The tag rows of a repository are those whose key starts with its name and a colon. -/
theorem tagKey_isPrefix {tag : String} (plain : PlainName repository) (otherPlain : PlainName other)
    : (tagKey repository "").toList.isPrefixOf (tagKey other tag).toList = true
      ↔ repository = other := by
  rw [List.isPrefixOf_iff_prefix]
  constructor
  · rintro ⟨_, whole⟩
    have split := splitOnce_append otherPlain tag.toList
    rw [← tagKey_toList, ← whole, tagKey_toList, String.toList_empty, List.append_assoc,
      List.cons_append, List.nil_append, splitOnce_append plain] at split
    simp only [Option.some.injEq, Prod.mk.injEq, String.toList_inj] at split
    exact split.1
  · rintro rfl
    rw [tagKey_toList, tagKey_toList]
    exact ⟨tag.toList, by simp⟩

theorem untaggedKey_toList (repository digest : String)
    : (untaggedKey repository digest).toList = repository.toList ++ '@' :: digest.toList := by
  simp [untaggedKey, String.toList_append]

/-- No digest contains the sign that separates it from its repository. -/
theorem Digest.plain (digest : Digest) : '@' ∉ digest.text.toList := by
  have valid := digest.valid
  unfold validateDigest at valid
  split at valid
  · cases valid
  rename_i algo hex split
  have parts : digest.text.toList = algo ++ ':' :: hex := by
    unfold splitOnce at split
    rw [List.span_eq_takeWhile_dropWhile] at split
    split at split
    · cases split
    rename_i head after spanned
    cases split
    simp only [Prod.mk.injEq] at spanned
    have isHead : head = ':' := by
      have stops := List.head?_dropWhile_not (· != ':') digest.text.toList
      rw [spanned.2] at stops
      simpa using stops
    rw [← isHead, ← spanned.1, ← spanned.2, List.takeWhile_append_dropWhile]
  split at valid
  · cases valid
  rename_i isSha
  simp only [ne_eq, Decidable.not_not] at isSha
  split at valid
  · cases valid
  split at valid
  · cases valid
  rename_i digits
  simp only [Bool.not_eq_true, Bool.not_eq_false', List.all_eq_true] at digits
  rw [parts, isSha, List.mem_append, List.mem_cons]
  rintro (impossible | impossible | member)
  · exact absurd impossible (by decide)
  · exact absurd impossible (by decide)
  · exact absurd (digits _ member) (by decide)

/-- A clock key tells the repository and the digest. -/
theorem untaggedKey_inj {digest otherDigest : Digest}
    (same : untaggedKey repository digest.text = untaggedKey other otherDigest.text)
    : repository = other ∧ digest.text = otherDigest.text := by
  have split := rsplitOnce_append digest.plain repository.toList
  rw [← untaggedKey_toList, same, untaggedKey_toList, rsplitOnce_append otherDigest.plain]
    at split
  simp only [Option.some.injEq, Prod.mk.injEq, String.toList_inj] at split
  exact ⟨split.1.symm, split.2.symm⟩

-- Tags of a row

theorem hasRealTag_iff {manifest : ImageManifest}
    : hasRealTag manifest = true ↔ ∃ tag, tag ∈ manifest.tags ∧ isDigestTag tag = false := by
  simp [hasRealTag]

theorem hasRealTag_eq_false {manifest : ImageManifest}
    : hasRealTag manifest = false ↔ ∀ tag, tag ∈ manifest.tags → isDigestTag tag = true := by
  simp [hasRealTag]

namespace ManifestCatalog

def rowKey (row : String × ImageManifest) : String × String :=
  (row.2.repository, row.1)

variable {repository tag : String} {row : String × ImageManifest} {catalog next : ManifestCatalog}
  {pinned : BTreeSet String}

theorem isRow_iff {digest : String}
    : isRow repository digest row = true ↔ rowKey row = (repository, digest) := by
  simp [isRow, rowKey, and_comm]

section

variable (loses : String × ImageManifest → Bool) (tag : String) (row : String × ImageManifest)

@[simp] theorem withoutTag_fst
    : (withoutTag loses tag row).1 = row.1 := by
  unfold withoutTag
  split <;> rfl

@[simp] theorem withoutTag_repository
    : (withoutTag loses tag row).2.repository = row.2.repository := by
  unfold withoutTag
  split <;> rfl

@[simp] theorem withoutTag_digest
    : (withoutTag loses tag row).2.digest = row.2.digest := by
  unfold withoutTag
  split <;> rfl

@[simp] theorem withoutTag_referencedDigests
    : (withoutTag loses tag row).2.referencedDigests = row.2.referencedDigests := by
  unfold withoutTag
  split <;> rfl

@[simp] theorem rowKey_withoutTag
    : rowKey (withoutTag loses tag row) = rowKey row := by
  simp [rowKey]

end

/-- A row keeps its tags but the one that it loses. -/
theorem mem_withoutTag_tags {loses : String × ImageManifest → Bool} {other : String}
    : other ∈ (withoutTag loses tag row).2.tags
      ↔ other ∈ row.2.tags ∧ ¬(loses row = true ∧ other = tag) := by
  unfold withoutTag
  split
  · rename_i loser
    simp only [Std.ExtTreeSet.mem_erase, Std.compare_eq_iff_eq, loser, true_and, ne_eq]
    exact ⟨fun both => ⟨both.2, fun same => both.1 same.symm⟩,
      fun both => ⟨fun same => both.2 same.symm, both.1⟩⟩
  · rename_i keeper
    simp [keeper]

/-- A row that loses a tag has no real tag left if it had none, or if it loses its last. -/
theorem hasRealTag_withoutTag {loses : String × ImageManifest → Bool}
    : hasRealTag (withoutTag loses tag row).2 = false
      ↔ hasRealTag row.2 = false ∨ losesLastTag loses tag row = true := by
  constructor
  · intro bare
    by_cases real : hasRealTag row.2 = false
    · exact .inl real
    right
    obtain ⟨other, member, isReal⟩ := hasRealTag_iff.mp (by simpa using real)
    have gone : other ∉ (withoutTag loses tag row).2.tags := by
      intro kept
      have := hasRealTag_eq_false.mp bare other kept
      simp [this] at isReal
    rw [mem_withoutTag_tags] at gone
    obtain ⟨loser, rfl⟩ := not_not.mp (fun kept => gone ⟨member, kept⟩)
    simp [losesLastTag, loser, bare, member]
  · rintro (bare | last)
    · refine hasRealTag_eq_false.mpr (fun other kept => ?_)
      exact hasRealTag_eq_false.mp bare other (mem_withoutTag_tags.mp kept).1
    · simpa [losesLastTag] using (by simpa [losesLastTag] using last :
        (loses row = true ∧ tag ∈ row.2.tags) ∧ _).2

-- Clocks

theorem get_insertIfNew (clocks : BTreeMap String Nat) (key other : String) (time : Nat)
    : (clocks.insertIfNew key time)[other]?
      = clocks[other]?.or (if key = other then some time else none) := by
  simp only [Std.ExtTreeMap.getElem?_insertIfNew, Std.compare_eq_iff_eq, not_mem_iff]
  by_cases same : key = other
  · subst same
    cases found : clocks[key]? <;> simp
  · simp [same]

/-- Removing a tag starts the clocks of the rows that lose their last one, and leaves those that
run. -/
theorem removeTag_clock (catalog : ManifestCatalog) (loses : String × ImageManifest → Bool)
    (tag : String) (time : Nat) (key : String)
    : (catalog.removeTag loses tag time).untaggedAt[key]?
      = catalog.untaggedAt[key]?.or
        (if catalog.manifests.any (fun row => losesLastTag loses tag row
            && untaggedKey row.2.repository row.1 == key) then some time else none) := by
  unfold removeTag
  simp only
  generalize catalog.untaggedAt = clocks
  induction catalog.manifests generalizing clocks with
  | nil => simp
  | cons row rest ih =>
    rw [List.foldl_cons, ih, List.any_cons]
    cases last : losesLastTag loses tag row with
    | false => rw [Bool.false_and, Bool.false_or, if_neg Bool.false_ne_true]
    | true =>
      rw [if_pos rfl, get_insertIfNew, Option.or_assoc, Bool.true_and]
      congr 1
      cases here : untaggedKey row.2.repository row.1 == key with
      | false => rw [if_neg (by simpa using here), Bool.false_or, Option.none_or]
      | true => rw [if_pos (by simpa using here), Bool.true_or, if_pos rfl, Option.some_or]

/-- The tables agree with each other, tags apart: a row is kept under its digest, rows and tag
rows are unique, and exactly the rows without a real tag have a clock. -/
structure Sound (catalog : ManifestCatalog) : Prop where
  stored : ∀ row ∈ catalog.manifests, row.1 = row.2.digest.text
  rows : Rows.Unique rowKey catalog.manifests
  tagRows : Rows.Unique Prod.fst catalog.tags
  clocks : ∀ key : String, key ∈ catalog.untaggedAt
    ↔ ∃ row ∈ catalog.manifests,
        untaggedKey row.2.repository row.1 = key ∧ hasRealTag row.2 = false

theorem Sound.empty : ({} : ManifestCatalog).Sound where
  stored := by simp
  rows := List.nodup_nil
  tagRows := List.nodup_nil
  clocks := by simp

/-- Rows with one clock are the same row. -/
theorem Sound.row_of_clock (sound : catalog.Sound) (listed : row ∈ catalog.manifests)
    {digest : Digest}
    (same : untaggedKey row.2.repository row.1 = untaggedKey repository digest.text)
    : rowKey row = (repository, digest.text) := by
  rw [sound.stored row listed] at same
  obtain ⟨isRepository, isDigest⟩ := untaggedKey_inj same
  simp [rowKey, sound.stored row listed, isRepository, isDigest]

theorem Sound.getRepositoryManifest_eq (sound : catalog.Sound) (listed : row ∈ catalog.manifests)
    : catalog.getRepositoryManifest row.2.repository row.1 = some row.2 := by
  unfold getRepositoryManifest
  rw [sound.rows.find_eq listed (fun other => isRow_iff)]
  rfl

theorem getRepositoryManifest_some {digest : String} {manifest : ImageManifest}
    (found : catalog.getRepositoryManifest repository digest = some manifest)
    : (digest, manifest) ∈ catalog.manifests ∧ manifest.repository = repository := by
  obtain ⟨_, isFirst, rfl⟩ := Option.map_eq_some_iff.mp found
  have fitting := isRow_iff.mp (List.find?_some isFirst)
  simp only [rowKey, Prod.mk.injEq] at fitting
  refine ⟨?_, fitting.1⟩
  rw [← fitting.2]
  exact List.mem_of_find?_eq_some isFirst

/-- Taking a tag off keeps the catalogue sound. -/
theorem Sound.removeTag (sound : catalog.Sound) (loses : String × ImageManifest → Bool)
    (tag : String) (time : Nat)
    : (catalog.removeTag loses tag time).Sound where
  stored := by
    intro row listed
    obtain ⟨before, member, rfl⟩ := List.mem_map.mp listed
    simpa using sound.stored before member
  rows := sound.rows.map (rowKey_withoutTag loses tag)
  tagRows := sound.tagRows
  clocks := by
    intro key
    rw [mem_iff, removeTag_clock]
    have running := sound.clocks key
    rw [mem_iff] at running
    constructor
    · rintro ⟨time, found⟩
      rcases Option.or_eq_some_iff.mp found with before | ⟨_, started⟩
      · obtain ⟨row, listed, isKey, bare⟩ := running.mp ⟨time, before⟩
        exact ⟨_, List.mem_map_of_mem listed, by simpa using isKey,
          hasRealTag_withoutTag.mpr (.inl bare)⟩
      · split at started
        · rename_i some
          obtain ⟨row, listed, last⟩ := List.any_eq_true.mp some
          simp only [Bool.and_eq_true, beq_iff_eq] at last
          exact ⟨_, List.mem_map_of_mem listed, by simpa using last.2,
            hasRealTag_withoutTag.mpr (.inr last.1)⟩
        · cases started
    · rintro ⟨row, listed, isKey, bare⟩
      obtain ⟨before, member, rfl⟩ := List.mem_map.mp listed
      rw [withoutTag_repository, withoutTag_fst] at isKey
      rcases hasRealTag_withoutTag.mp bare with was | last
      · obtain ⟨since, clock⟩ := running.mpr ⟨before, member, isKey, was⟩
        exact ⟨since, by simp [clock]⟩
      have some : catalog.manifests.any (fun row => losesLastTag loses tag row
          && untaggedKey row.2.repository row.1 == key) = true :=
        List.any_eq_true.mpr ⟨before, member, by simp [last, isKey]⟩
      rw [some, if_pos rfl]
      cases clock : catalog.untaggedAt[key]? with
      | none => exact ⟨time, rfl⟩
      | some since => exact ⟨since, rfl⟩

-- The row that a commit tags

@[simp] theorem withTag_referencedDigests (tag : String) (row : String × ImageManifest)
    : (withTag tag row).2.referencedDigests = row.2.referencedDigests :=
  rfl

/-- The rows once a tag is put: the content's own has it, the others are as they were. -/
theorem mem_addTag {catalog : ManifestCatalog} (unique : Rows.Unique rowKey catalog.manifests)
    (commit : ManifestCommit) (signature : Option ImageSignature) {row : String × ImageManifest}
    : row ∈ (catalog.addTag commit signature).manifests
      ↔ (∃ old ∈ catalog.manifests, rowKey old = rowKey (newRow commit signature)
          ∧ row = withTag commit.tag old)
        ∨ (row ∈ catalog.manifests ∧ rowKey row ≠ rowKey (newRow commit signature))
        ∨ (row = newRow commit signature
          ∧ ∀ old ∈ catalog.manifests, rowKey old ≠ rowKey (newRow commit signature)) :=
  @Rows.mem_changeOrPush _ _ rowKey _ (withTag commit.tag) _ unique (newRow commit signature)
    (fun _ => isRow_iff) row

theorem unique_addTag (unique : Rows.Unique rowKey catalog.manifests) (commit : ManifestCommit)
    (signature : Option ImageSignature)
    : Rows.Unique rowKey (catalog.addTag commit signature).manifests :=
  @Rows.Unique.changeOrPush _ _ rowKey _ (withTag commit.tag) _ unique (newRow commit signature)
    (fun _ => isRow_iff) (fun _ _ => rfl)

theorem mem_withTag_tags {other : String}
    : other ∈ (withTag tag row).2.tags ↔ other = tag ∨ other ∈ row.2.tags := by
  simp only [withTag, Std.ExtTreeSet.mem_insert, Std.compare_eq_iff_eq]
  exact or_congr eq_comm Iff.rfl

theorem mem_newRow_tags {commit : ManifestCommit} {signature : Option ImageSignature}
    : tag ∈ (newRow commit signature).2.tags ↔ tag = commit.tag := by
  simp only [newRow, Std.ExtTreeSet.mem_insert, Std.compare_eq_iff_eq]
  simp [eq_comm]

/-- The row that a commit tags carries the tag. -/
theorem addTag_row (unique : Rows.Unique rowKey catalog.manifests) (commit : ManifestCommit)
    (signature : Option ImageSignature)
    : ∃ row ∈ (catalog.addTag commit signature).manifests,
        rowKey row = rowKey (newRow commit signature) ∧ commit.tag ∈ row.2.tags := by
  by_cases present : ∃ old ∈ catalog.manifests, rowKey old = rowKey (newRow commit signature)
  · obtain ⟨old, listed, same⟩ := present
    exact ⟨_, (mem_addTag unique commit signature).mpr (.inl ⟨old, listed, same, rfl⟩), same,
      mem_withTag_tags.mpr (.inl rfl)⟩
  · refine ⟨_, (mem_addTag unique commit signature).mpr (.inr (.inr ⟨rfl, ?_⟩)), rfl, ?_⟩
    · exact fun old listed same => present ⟨old, listed, same⟩
    · exact mem_newRow_tags.mpr rfl

theorem addTag_stored (sound : catalog.Sound) (commit : ManifestCommit)
    (signature : Option ImageSignature)
    : ∀ row ∈ (catalog.addTag commit signature).manifests, row.1 = row.2.digest.text := by
  intro row listed
  rcases (mem_addTag sound.rows commit signature).mp listed with
    ⟨old, member, _, rfl⟩ | ⟨member, _⟩ | ⟨rfl, _⟩
  · exact sound.stored old member
  · exact sound.stored row member
  · rfl

/-- Away from the tagged row, a commit moves no clock. -/
theorem setClock_get_ne (catalog : ManifestCatalog) (commit : ManifestCommit) {key : String}
    (elsewhere : untaggedKey commit.manifest.repository commit.manifest.digest.text ≠ key)
    : (catalog.setClock commit).untaggedAt[key]? = catalog.untaggedAt[key]? := by
  unfold setClock
  simp only
  split
  · split
    · rfl
    · rw [get_insertIfNew, if_neg elsewhere, Option.or_none]
  · exact get_erase_ne _ elsewhere

/-- The tagged row has a clock just when it has no real tag. -/
theorem setClock_tagged (commit : ManifestCommit) {manifest : ImageManifest}
    (found : catalog.getRepositoryManifest commit.manifest.repository commit.manifest.digest.text
      = some manifest) (tagged : commit.tag ∈ manifest.tags)
    (running : untaggedKey commit.manifest.repository commit.manifest.digest.text
        ∈ catalog.untaggedAt
      → isDigestTag commit.tag = true → hasRealTag manifest = false)
    : untaggedKey commit.manifest.repository commit.manifest.digest.text
        ∈ (catalog.setClock commit).untaggedAt
      ↔ hasRealTag manifest = false := by
  unfold setClock
  simp only [found, Option.any_some]
  cases isDigest : isDigestTag commit.tag with
  | true =>
    cases real : hasRealTag manifest with
    | true =>
      simp only [if_true, Bool.true_eq_false, iff_false]
      intro clock
      rw [running clock isDigest] at real
      cases real
    | false =>
      simp only [if_true, Bool.false_eq_true, if_false, iff_true, mem_iff, get_insertIfNew]
      cases catalog.untaggedAt[
          untaggedKey commit.manifest.repository commit.manifest.digest.text]? with
      | none => exact ⟨_, rfl⟩
      | some since => exact ⟨since, rfl⟩
  | false =>
    have real : hasRealTag manifest = true := hasRealTag_iff.mpr ⟨_, tagged, isDigest⟩
    simp [real]

theorem Sound.addTag (sound : catalog.Sound) (commit : ManifestCommit)
    (signature : Option ImageSignature)
    (fresh : ∀ row ∈ catalog.tags, row.1 ≠ tagKey commit.manifest.repository commit.tag)
    : ((catalog.addTag commit signature).setClock commit).Sound := by
  obtain ⟨mine, listed, isMine, tagged⟩ := addTag_row sound.rows commit signature
  have unique := unique_addTag sound.rows commit signature
  have stored := addTag_stored sound commit signature
  have mineKey : mine.2.repository = commit.manifest.repository
      ∧ mine.1 = commit.manifest.digest.text := by
    simpa [rowKey, newRow] using isMine
  refine ⟨stored, unique, sound.tagRows.push fresh, fun key => ?_⟩
  show key ∈ ((catalog.addTag commit signature).setClock commit).untaggedAt
    ↔ ∃ row ∈ (catalog.addTag commit signature).manifests, _
  by_cases elsewhere : untaggedKey commit.manifest.repository commit.manifest.digest.text = key
  · -- The clock of the tagged row: every row with that clock is the tagged row.
    subst elsewhere
    have onlyMine : ∀ row ∈ (catalog.addTag commit signature).manifests,
        untaggedKey row.2.repository row.1
          = untaggedKey commit.manifest.repository commit.manifest.digest.text
        → row = mine := by
      intro row member same
      rw [stored row member] at same
      obtain ⟨isRepository, isDigest⟩ := untaggedKey_inj same
      refine unique.eq member listed ?_
      simp [rowKey, isRepository, stored row member, isDigest, mineKey]
    have found : (catalog.addTag commit signature).getRepositoryManifest
        commit.manifest.repository commit.manifest.digest.text = some mine.2 := by
      unfold getRepositoryManifest
      rw [unique.find_eq listed (fun other => by rw [isRow_iff]; simp [rowKey, mineKey])]
      rfl
    rw [setClock_tagged commit found tagged ?_]
    · constructor
      · exact fun bare => ⟨mine, listed, by rw [mineKey.1, mineKey.2], bare⟩
      · rintro ⟨row, member, same, bare⟩
        rwa [← onlyMine row member same]
    intro clock isDigest
    obtain ⟨before, member, same, bare⟩ := (sound.clocks _).mp clock
    have sameKey := sound.row_of_clock member same
    have isTagged : withTag commit.tag before = mine := by
      refine onlyMine _ ((mem_addTag sound.rows commit signature).mpr
        (.inl ⟨before, member, sameKey, rfl⟩)) ?_
      exact same
    rw [← isTagged]
    refine hasRealTag_eq_false.mpr (fun other member => ?_)
    rcases mem_withTag_tags.mp member with rfl | old
    · exact isDigest
    · exact hasRealTag_eq_false.mp bare other old
  · rw [mem_iff, setClock_get_ne _ commit elsewhere, ← mem_iff]
    refine (sound.clocks key).trans ⟨?_, ?_⟩
    · rintro ⟨row, member, isKey, bare⟩
      refine ⟨row, (mem_addTag sound.rows commit signature).mpr (.inr (.inl ⟨member, ?_⟩)), isKey,
        bare⟩
      intro same
      simp only [rowKey, newRow, Prod.mk.injEq] at same
      rw [same.1, same.2] at isKey
      exact elsewhere isKey
    · rintro ⟨row, member, isKey, bare⟩
      rcases (mem_addTag sound.rows commit signature).mp member with
        ⟨old, _, same, rfl⟩ | ⟨old, _⟩ | ⟨rfl, _⟩
      · simp only [rowKey, newRow, Prod.mk.injEq] at same
        simp only [withTag, same.1, same.2] at isKey
        exact absurd isKey elsewhere
      · exact ⟨row, old, isKey, bare⟩
      · exact absurd isKey elsewhere

section

variable (sound : catalog.Sound)
include sound

theorem Sound.untaggedFor (commit : ManifestCommit)
    : (catalog.untaggedFor commit).Sound := by
  have filtered : Sound { catalog with
      tags := catalog.tags.filter
        (·.1 != tagKey commit.manifest.repository commit.tag) } :=
    ⟨sound.stored, sound.rows, sound.tagRows.filter _, sound.clocks⟩
  exact filtered.removeTag _ _ _

/-- A push keeps the catalogue sound. -/
theorem Sound.commit (commit : ManifestCommit)
    : (catalog.applyManifestCommit commit).Sound := by
  have tagged := (sound.untaggedFor commit).addTag commit (catalog.committedSignature commit)
    (fun row member => by simpa using (List.mem_filter.mp member).2)
  exact ⟨tagged.stored, tagged.rows, tagged.tagRows, tagged.clocks⟩

/-- The rows after a commit: its own row carries the tag, and no other row of its repository
does. -/
theorem mem_commit (commit : ManifestCommit)
    : row ∈ (catalog.applyManifestCommit commit).manifests
      ↔ (∃ old ∈ catalog.manifests,
          rowKey old = (commit.manifest.repository, commit.manifest.digest.text)
          ∧ row = withTag commit.tag (withoutTag (inRepository commit) commit.tag old))
        ∨ (∃ old ∈ catalog.manifests,
          rowKey old ≠ (commit.manifest.repository, commit.manifest.digest.text)
          ∧ row = withoutTag (inRepository commit) commit.tag old)
        ∨ (row = newRow commit (catalog.committedSignature commit)
          ∧ ∀ old ∈ catalog.manifests,
            rowKey old ≠ (commit.manifest.repository, commit.manifest.digest.text)) := by
  have rows := @mem_addTag (catalog.untaggedFor commit) (sound.untaggedFor commit).rows commit
    (catalog.committedSignature commit) row
  have listed : ∀ other, other ∈ (catalog.untaggedFor commit).manifests
      ↔ ∃ old ∈ catalog.manifests, withoutTag (inRepository commit) commit.tag old = other :=
    fun other => List.mem_map
  refine rows.trans ⟨?_, ?_⟩
  · rintro (⟨other, member, same, rfl⟩ | ⟨member, different⟩ | ⟨rfl, absent⟩)
    · obtain ⟨old, before, rfl⟩ := (listed other).mp member
      rw [rowKey_withoutTag] at same
      exact .inl ⟨old, before, same, rfl⟩
    · obtain ⟨old, before, rfl⟩ := (listed row).mp member
      rw [rowKey_withoutTag] at different
      exact .inr (.inl ⟨old, before, different, rfl⟩)
    · refine .inr (.inr ⟨rfl, fun old before => ?_⟩)
      have := absent _ ((listed _).mpr ⟨old, before, rfl⟩)
      rwa [rowKey_withoutTag] at this
  · rintro (⟨old, before, _, rfl⟩ | ⟨old, before, _, rfl⟩ | ⟨rfl, absent⟩)
    · refine .inl ⟨_, (listed _).mpr ⟨old, before, rfl⟩, ?_, rfl⟩
      rwa [rowKey_withoutTag]
    · refine .inr (.inl ⟨(listed _).mpr ⟨old, before, rfl⟩, ?_⟩)
      rwa [rowKey_withoutTag]
    · refine .inr (.inr ⟨rfl, fun other member => ?_⟩)
      obtain ⟨old, before, rfl⟩ := (listed other).mp member
      rw [rowKey_withoutTag]
      exact absent old before

-- Rows that are removed

/-- Deleting a tag keeps the catalogue sound. -/
theorem Sound.deleteTag (delete : DeleteTag)
    : (catalog.applyDeleteTag delete).2.Sound := by
  unfold applyDeleteTag
  simp only
  split
  · exact sound
  have filtered : Sound { catalog with
      tags := catalog.tags.filter (·.1 != tagKey delete.repository delete.tag) } :=
    ⟨sound.stored, sound.rows, sound.tagRows.filter _, sound.clocks⟩
  exact filtered.removeTag _ _ _

/-- Removing rows together with their clocks, and any tag rows, keeps the tables sound. -/
theorem Sound.removeRows {keep : String × ImageManifest → Bool}
    (manifests : next.manifests = catalog.manifests.filter keep)
    (tags : next.tags.Sublist catalog.tags)
    (clocks : ∀ row ∈ catalog.manifests, untaggedKey row.2.repository row.1 ∈ next.untaggedAt
      ↔ untaggedKey row.2.repository row.1 ∈ catalog.untaggedAt ∧ keep row = true)
    (within : ∀ key ∈ next.untaggedAt, key ∈ catalog.untaggedAt)
    : next.Sound where
  stored row listed := by
    rw [manifests] at listed
    exact sound.stored row (List.mem_filter.mp listed).1
  rows := by
    rw [manifests]
    exact sound.rows.filter keep
  tagRows := (tags.map Prod.fst).nodup sound.tagRows
  clocks key := by
    rw [manifests]
    constructor
    · intro clock
      obtain ⟨row, listed, rfl, bare⟩ := (sound.clocks key).mp (within key clock)
      exact ⟨row, List.mem_filter.mpr ⟨listed, ((clocks row listed).mp clock).2⟩, rfl, bare⟩
    · rintro ⟨row, listed, rfl, bare⟩
      obtain ⟨member, kept⟩ := List.mem_filter.mp listed
      exact (clocks row member).mpr ⟨(sound.clocks _).mpr ⟨row, member, rfl, bare⟩, kept⟩

/-- Retiring a repository keeps the catalogue sound. -/
theorem Sound.retire (repository : String)
    : (catalog.retireRepository repository).Sound := by
  have same : ∀ row ∈ catalog.manifests,
      (rsplitOnce '@' (untaggedKey row.2.repository row.1).toList).all
        (fun parts => parts.1 != repository.toList)
      = !(row.2.repository == repository) := by
    intro row listed
    rw [untaggedKey_toList, sound.stored row listed, rsplitOnce_append row.2.digest.plain,
      Option.all_some, Bool.eq_iff_iff]
    simp [String.toList_inj]
  refine sound.removeRows rfl List.filter_sublist (fun row listed => ?_) (fun key clock => ?_)
  · rw [← same row listed]
    exact mem_filter_keys
  · exact (mem_filter_keys.mp clock).1

end

/-- An accepted expiry finds the row, without a real tag, not pinned and listed by no index. -/
theorem expiryRefusal_eq_none {expire : ExpireManifest}
    : catalog.expiryRefusal expire pinned = none
      ↔ ∃ manifest,
          catalog.getRepositoryManifest expire.repository expire.digest.text = some manifest
          ∧ hasRealTag manifest = false
          ∧ catalog.untaggedSince expire.repository expire.digest = some expire.untaggedAtUnixMs
          ∧ expire.digest.text ∉ pinned
          ∧ ∀ row ∈ catalog.manifests,
              listsPlatform expire.repository expire.digest row = false := by
  unfold expiryRefusal
  cases catalog.getRepositoryManifest expire.repository expire.digest.text with
  | none => simp
  | some manifest =>
    simp only [Option.some.injEq, exists_eq_left']
    constructor
    · intro accepted
      split at accepted
      · cases accepted
      split at accepted
      · cases accepted
      split at accepted
      · cases accepted
      split at accepted
      · cases accepted
      simp_all
    · rintro ⟨bare, since, unpinned, unlisted⟩
      have nowhere : catalog.manifests.any (listsPlatform expire.repository expire.digest)
          = false := by
        simpa using unlisted
      simp [bare, since, unpinned, nowhere]

theorem applyExpireManifest_ok {expire : ExpireManifest}
    (expired : catalog.applyExpireManifest expire pinned = .ok next)
    : ∃ manifest,
        catalog.getRepositoryManifest expire.repository expire.digest.text = some manifest
        ∧ catalog.expiryRefusal expire pinned = none
        ∧ next = dropLocations
          { catalog with
            manifests := catalog.manifests.filter
              (fun row => !isRow expire.repository expire.digest.text row)
            untaggedAt := catalog.untaggedAt.erase
              (untaggedKey expire.repository expire.digest.text) }
          (manifest.referencedDigests.map (·.text)) := by
  unfold applyExpireManifest at expired
  split at expired
  · cases expired
  rename_i accepted
  obtain ⟨manifest, found, _⟩ := expiryRefusal_eq_none.mp accepted
  refine ⟨manifest, found, accepted, ?_⟩
  cases expired
  simp only [found, Option.map_some, Option.getD_some]

/-- An expiry keeps the catalogue sound. -/
theorem Sound.expire (sound : catalog.Sound) {expire : ExpireManifest}
    (expired : catalog.applyExpireManifest expire pinned = .ok next)
    : next.Sound := by
  obtain ⟨_, _, _, rfl⟩ := applyExpireManifest_ok expired
  refine sound.removeRows rfl (List.Sublist.refl _) (fun row listed => ?_) (fun key clock => ?_)
  · have same : untaggedKey expire.repository expire.digest.text
        = untaggedKey row.2.repository row.1
        ↔ isRow expire.repository expire.digest.text row = true := by
      rw [isRow_iff]
      refine ⟨fun same => sound.row_of_clock listed same.symm, fun same => ?_⟩
      simp only [rowKey, Prod.mk.injEq] at same
      rw [same.1, same.2]
    show untaggedKey row.2.repository row.1 ∈ catalog.untaggedAt.erase _ ↔ _
    simp only [Std.ExtTreeMap.mem_erase, ne_eq, Std.compare_eq_iff_eq, same]
    simp [and_comm]
  · exact (Std.ExtTreeMap.mem_erase.mp clock).2

/-- Every call keeps the catalogue sound. -/
theorem Sound.step {catalog : ManifestCatalog} (sound : catalog.Sound) (op : CatalogOp)
    : (catalog.step op).Sound := by
  -- Calls that only move holders.
  have holders : ∀ locations, Sound { catalog with layerLocations := locations } :=
    fun _ => ⟨sound.stored, sound.rows, sound.tagRows, sound.clocks⟩
  cases op with
  | manifestCommit commit => exact sound.commit commit
  | deleteTag delete => exact sound.deleteTag delete
  | expireManifest expire pinned =>
    simp only [ManifestCatalog.step]
    split
    · rename_i expired
      exact sound.expire expired
    · exact sound
  | retireRepository repository => exact sound.retire repository
  | addManifestHolder repository digest node =>
    simp only [ManifestCatalog.step, addManifestHolder]
    cases catalog.getRepositoryManifest repository digest.text with
    | none => exact sound
    | some manifest => exact holders _
  | gcReport report => exact holders _
  | removeNodeHoldings node => exact holders _

theorem Sound.run (sound : catalog.Sound) (ops : List CatalogOp)
    : (catalog.run ops).Sound := by
  induction ops generalizing catalog with
  | nil => exact sound
  | cons op rest ih => exact ih (sound.step op)

end ManifestCatalog

end Reliaburger
