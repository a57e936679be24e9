import Reliaburger.Registry.Consistency

/-! What expiry may remove: an accepted expiry spares every manifest that a tag or a pin still
reaches through image indexes, and a planned one is refused once its manifest was tagged again
or pinned.
-/

namespace Reliaburger

/-- A call that untags manifests of a repository does so at this time. -/
def CatalogOp.Stamps (repository : String) (time : Nat) : CatalogOp → Prop
  | .manifestCommit commit =>
    commit.manifest.repository = repository ∧ unixMillis commit.manifest.pushedAt = time
  | .deleteTag delete => delete.repository = repository ∧ delete.deletedAtUnixMs = time
  | _ => False

/-- A call that carries the untagging time an expiry was planned for, and finds no clock running
for its manifest. -/
def CatalogOp.StampsAgain (expire : ExpireManifest) (catalog : ManifestCatalog) (op : CatalogOp)
    : Prop :=
  op.Stamps expire.repository expire.untaggedAtUnixMs
  ∧ catalog.untaggedSince expire.repository expire.digest = none

namespace ManifestCatalog

-- Manifests that are still in use

/-- An image index of the catalogue lists another row of its repository as a platform. -/
def Lists (catalog : ManifestCatalog) (index platform : String × ImageManifest) : Prop :=
  index ∈ catalog.manifests
  ∧ platform ∈ catalog.manifests
  ∧ index.2.isIndex = true
  ∧ platform.2.repository = index.2.repository
  ∧ ∃ entry ∈ index.2.layers, entry.digest.text = platform.1

/-- Some row with a real tag or a pinned digest reaches this one through image indexes. -/
def Reached (catalog : ManifestCatalog) (pinned : BTreeSet String)
    (row : String × ImageManifest)
    : Prop :=
  ∃ root ∈ catalog.manifests,
    (hasRealTag root.2 = true ∨ root.1 ∈ pinned)
    ∧ Relation.ReflTransGen catalog.Lists root row

variable {catalog : ManifestCatalog} {pinned : BTreeSet String} {row : String × ImageManifest}
  {expire : ExpireManifest} {digest : Digest} {repository : String} {since : Nat}

theorem Reached.listed (reached : catalog.Reached pinned row)
    : row ∈ catalog.manifests := by
  obtain ⟨_, listed, _, path⟩ := reached
  cases path with
  | refl => exact listed
  | tail _ last => exact last.2.1

/-- The refusal looks one level up only; along a path that is enough, since whatever lists the
expired row is itself still there. -/
theorem Reached.not_expired (sound : catalog.Sound) (reached : catalog.Reached pinned row)
    (accepted : catalog.expiryRefusal expire pinned = none)
    : rowKey row ≠ (expire.repository, expire.digest.text) := by
  obtain ⟨manifest, found, bare, _, unpinned, unlisted⟩ := expiryRefusal_eq_none.mp accepted
  obtain ⟨listed, isRepository⟩ := getRepositoryManifest_some found
  obtain ⟨root, isRoot, used, path⟩ := reached
  induction path with
  | refl =>
    intro same
    have isExpired : root = (expire.digest.text, manifest) := by
      refine sound.rows.eq isRoot listed ?_
      rw [same, rowKey, isRepository]
    subst isExpired
    rcases used with tagged | pinnedHere
    · simp only [bare, Bool.false_eq_true] at tagged
    · exact unpinned pinnedHere
  | @tail index row _ last ih =>
    intro same
    obtain ⟨isIndexRow, _, isIndex, sameRepository, entry, isEntry, names⟩ := last
    simp only [rowKey, Prod.mk.injEq] at same
    have other : index.2.digest ≠ expire.digest := by
      intro sameDigest
      refine ih ?_
      rw [rowKey, ← sameRepository, same.1, sound.stored index isIndexRow, sameDigest]
    have lists : listsPlatform expire.repository expire.digest index = true := by
      simp only [listsPlatform, isIndex, ← sameRepository, same.1, beq_self_eq_true,
        Bool.true_and, Bool.and_eq_true, bne_iff_ne, ne_eq, other, not_false_eq_true, true_and,
        List.any_eq_true, beq_iff_eq]
      exact ⟨entry, isEntry, names.trans same.2⟩
    rw [unlisted index isIndexRow] at lists
    cases lists

theorem Reached.kept {next : ManifestCatalog} (sound : catalog.Sound)
    (reached : catalog.Reached pinned row)
    (expired : catalog.applyExpireManifest expire pinned = .ok next)
    : row ∈ next.manifests := by
  obtain ⟨_, _, accepted, rfl⟩ := applyExpireManifest_ok expired
  refine List.mem_filter.mpr ⟨reached.listed, ?_⟩
  simpa [← isRow_iff] using reached.not_expired sound accepted

-- Clocks along a run

/-- A clock that runs after tags were removed ran before, or started then. -/
theorem removeTag_untaggedSince (sound : catalog.Sound) {loses : String × ImageManifest → Bool}
    {tag : String} {time : Nat}
    (running : (catalog.removeTag loses tag time).untaggedSince repository digest = some since)
    : catalog.untaggedSince repository digest = some since
      ∨ (catalog.untaggedSince repository digest = none
        ∧ time = since
        ∧ ∃ row ∈ catalog.manifests, loses row = true ∧ row.2.repository = repository) := by
  unfold untaggedSince at running ⊢
  rw [removeTag_clock] at running
  refine (Option.or_eq_some_iff.mp running).imp id (fun ⟨stopped, started⟩ => ⟨stopped, ?_⟩)
  split at started
  · rename_i some
    obtain ⟨row, listed, last⟩ := List.any_eq_true.mp some
    simp only [losesLastTag, Bool.and_eq_true, beq_iff_eq] at last
    have isRow := sound.row_of_clock listed last.2
    simp only [rowKey, Prod.mk.injEq] at isRow
    exact ⟨Option.some.inj started, row, listed, last.1.1.1, isRow.1⟩
  · cases started

theorem commit_untaggedSince (sound : catalog.Sound) {commit : ManifestCommit}
    (running : (catalog.applyManifestCommit commit).untaggedSince repository digest = some since)
    : catalog.untaggedSince repository digest = some since
      ∨ (catalog.untaggedSince repository digest = none
        ∧ (CatalogOp.manifestCommit commit).Stamps repository since) := by
  have filtered : Sound { catalog with
      tags := catalog.tags.filter
        (·.1 != tagKey commit.manifest.repository commit.tag) } :=
    ⟨sound.stored, sound.rows, sound.tagRows.filter _, sound.clocks⟩
  -- Before the tagged row's own clock is set.
  have untagged : ∀ {since : Nat},
      (catalog.untaggedFor commit).untaggedSince repository digest = some since
      → catalog.untaggedSince repository digest = some since
        ∨ (catalog.untaggedSince repository digest = none
          ∧ (CatalogOp.manifestCommit commit).Stamps repository since) := by
    intro since running
    refine (removeTag_untaggedSince filtered running).imp id (fun started => ?_)
    obtain ⟨stopped, isTime, row, _, loses, inside⟩ := started
    have isRepository : row.2.repository = commit.manifest.repository := by
      simpa [inRepository] using loses
    exact ⟨stopped, isRepository.symm.trans inside, isTime⟩
  have tagged : (((catalog.untaggedFor commit).addTag commit
      (catalog.committedSignature commit)).setClock commit).untaggedSince repository digest
      = some since := running
  by_cases elsewhere : untaggedKey commit.manifest.repository commit.manifest.digest.text
      = untaggedKey repository digest.text
  · obtain ⟨sameRepository, _⟩ := untaggedKey_inj elsewhere
    unfold untaggedSince setClock at tagged
    simp only [elsewhere] at tagged
    split at tagged
    · split at tagged
      · exact untagged tagged
      rw [get_insertIfNew, if_pos rfl] at tagged
      rcases Option.or_eq_some_iff.mp tagged with before | ⟨stopped, started⟩
      · exact untagged before
      refine .inr ⟨?_, sameRepository, Option.some.inj started⟩
      have stopped : (catalog.untaggedFor commit).untaggedSince repository digest = none :=
        stopped
      unfold untaggedSince untaggedFor at stopped
      rw [removeTag_clock] at stopped
      exact (Option.or_eq_none_iff.mp stopped).1
    · rw [BTreeMap.get_erase_self] at tagged
      cases tagged
  · unfold untaggedSince at tagged
    rw [setClock_get_ne _ commit elsewhere] at tagged
    exact untagged tagged

/-- A clock that runs after a call ran before it, or was started by it. -/
theorem step_untaggedSince (sound : catalog.Sound) {op : CatalogOp}
    (running : (catalog.step op).untaggedSince repository digest = some since)
    : catalog.untaggedSince repository digest = some since
      ∨ (catalog.untaggedSince repository digest = none ∧ op.Stamps repository since) := by
  cases op with
  | manifestCommit commit => exact commit_untaggedSince sound running
  | deleteTag delete =>
    simp only [step, applyDeleteTag] at running
    split at running
    · exact .inl running
    have filtered : Sound { catalog with
        tags := catalog.tags.filter (·.1 != tagKey delete.repository delete.tag) } :=
      ⟨sound.stored, sound.rows, sound.tagRows.filter _, sound.clocks⟩
    refine (removeTag_untaggedSince filtered running).imp id (fun started => ?_)
    obtain ⟨stopped, isTime, _, _, loses, inside⟩ := started
    have isRepository := congrArg Prod.fst (isRow_iff.mp loses)
    exact ⟨stopped, isRepository.symm.trans inside, isTime⟩
  | expireManifest expire pinned =>
    simp only [step] at running
    split at running
    · rename_i expired
      obtain ⟨_, _, _, rfl⟩ := applyExpireManifest_ok expired
      have running : (catalog.untaggedAt.erase (untaggedKey expire.repository
          expire.digest.text))[untaggedKey repository digest.text]? = some since := running
      rw [BTreeMap.get_erase] at running
      split at running
      · cases running
      · exact .inl running
    · exact .inl running
  | retireRepository retired =>
    refine .inl ?_
    have running : (catalog.untaggedAt.filter (fun key _ =>
        (rsplitOnce '@' key.toList).all (fun parts => parts.1 != retired.toList)))[
          untaggedKey repository digest.text]? = some since := running
    rw [BTreeMap.get_filter] at running
    exact (Option.filter_eq_some_iff.mp running).1
  | addManifestHolder holding held node =>
    simp only [step, addManifestHolder] at running
    cases found : catalog.getRepositoryManifest holding held.text with
    | none =>
      rw [found] at running
      exact .inl running
    | some manifest =>
      rw [found] at running
      exact .inl running
  | gcReport report => exact .inl running
  | removeNodeHoldings node => exact .inl running

/-- A planned untagging time that is not the current one stays out of date. -/
theorem run_untaggedSince_ne (sound : catalog.Sound) {ops : List CatalogOp}
    (apart : Meets (fun catalog op => ¬op.StampsAgain expire catalog) catalog ops)
    (stale : catalog.untaggedSince expire.repository expire.digest ≠ some expire.untaggedAtUnixMs)
    : (catalog.run ops).untaggedSince expire.repository expire.digest
      ≠ some expire.untaggedAtUnixMs := by
  induction ops generalizing catalog with
  | nil => exact stale
  | cons op rest ih =>
    refine ih (sound.step op) apart.2 (fun running => ?_)
    rcases step_untaggedSince sound running with before | ⟨stopped, stamps⟩
    · exact stale before
    · exact apart.1 ⟨stamps, stopped⟩

theorem applyExpireManifest_refused (refused : catalog.expiryRefusal expire pinned ≠ none)
    : ∃ reason, catalog.applyExpireManifest expire pinned = .error reason
        ∧ catalog.step (.expireManifest expire pinned) = catalog := by
  obtain ⟨reason, because⟩ := Option.ne_none_iff_exists'.mp refused
  have isError : catalog.applyExpireManifest expire pinned = .error reason := by
    simp only [applyExpireManifest, because]
  exact ⟨reason, isError, by simp only [step, isError]⟩

/-- Tagged at some moment, and not stamped with the planned time since. -/
theorem retagged_refused (sound : catalog.Sound) {rest : List CatalogOp}
    (tagged : (catalog.getRepositoryManifest expire.repository expire.digest.text).any
      hasRealTag = true)
    (apart : Meets (fun catalog op => ¬op.StampsAgain expire catalog) catalog rest)
    : (catalog.run rest).expiryRefusal expire pinned ≠ none := by
  obtain ⟨manifest, found, real⟩ : ∃ manifest,
      catalog.getRepositoryManifest expire.repository expire.digest.text = some manifest
      ∧ hasRealTag manifest = true := by
    cases found : catalog.getRepositoryManifest expire.repository expire.digest.text with
    | none => simp [found] at tagged
    | some manifest => exact ⟨manifest, rfl, by simpa [found] using tagged⟩
  obtain ⟨listed, isRepository⟩ := getRepositoryManifest_some found
  have stopped : catalog.untaggedSince expire.repository expire.digest = none := by
    refine BTreeMap.not_mem_iff.mp (fun clock => ?_)
    obtain ⟨row, member, same, bare⟩ := (sound.clocks _).mp clock
    have isRow : row = (expire.digest.text, manifest) := by
      refine sound.rows.eq member listed ?_
      rw [sound.row_of_clock member same, rowKey, isRepository]
    rw [isRow, real] at bare
    cases bare
  intro accepted
  obtain ⟨_, _, _, since, _⟩ := expiryRefusal_eq_none.mp accepted
  exact run_untaggedSince_ne sound apart (by rw [stopped]; exact Option.some_ne_none _ |>.symm)
    since

theorem expirable_accepted {now retain : Nat}
    (planned : expire ∈ catalog.expirableManifests now retain pinned)
    : ∃ next, catalog.applyExpireManifest expire pinned = .ok next := by
  have accepted := Option.isNone_iff_eq_none.mp (List.mem_filter.mp planned).2
  unfold applyExpireManifest
  rw [accepted]
  exact ⟨_, rfl⟩

-- Safety of expiry

/-- On every catalogue a run reaches: an accepted expiry keeps each row that a tag or a pin
reaches, with all it pins; every planned expiry is accepted as things stand; and it is refused,
with no effect, once the manifest is pinned, or was tagged in between and no call since untagged
it at the very millisecond the plan recorded. -/
theorem expiry_spares_reached (ops : List CatalogOp) (pinned : BTreeSet String)
    : let catalog := ManifestCatalog.run {} ops
      (∀ expire next, catalog.applyExpireManifest expire pinned = .ok next
        → ∀ row, catalog.Reached pinned row
          → row ∈ next.manifests
            ∧ ∀ digest ∈ row.2.referencedDigests, digest.text ∈ next.referencedDigestSet)
      ∧ (∀ now retain, ∀ expire ∈ catalog.expirableManifests now retain pinned,
        (∃ next, catalog.applyExpireManifest expire pinned = .ok next)
        ∧ ∀ (later : List CatalogOp) (laterPinned : BTreeSet String),
          (expire.digest.text ∈ laterPinned
            ∨ ∃ earlier rest, later = earlier ++ rest
              ∧ ((catalog.run earlier).getRepositoryManifest expire.repository
                  expire.digest.text).any hasRealTag = true
              ∧ Meets (fun catalog op => ¬op.StampsAgain expire catalog) (catalog.run earlier) rest)
          → ∃ reason,
              (catalog.run later).applyExpireManifest expire laterPinned = .error reason
              ∧ (catalog.run later).step (.expireManifest expire laterPinned)
                = catalog.run later) := by
  intro catalog
  have sound : catalog.Sound := Sound.empty.run ops
  refine ⟨fun expire next expired row reached => ?_, fun now retain expire planned => ?_⟩
  · have kept := reached.kept sound expired
    exact ⟨kept, fun digest pins => mem_referencedDigestSet.mpr
      ⟨row, kept, List.mem_map_of_mem pins⟩⟩
  refine ⟨expirable_accepted planned, fun later laterPinned changed => ?_⟩
  refine applyExpireManifest_refused ?_
  rcases changed with isPinned | ⟨earlier, rest, rfl, tagged, apart⟩
  · intro accepted
    obtain ⟨_, _, _, _, unpinned, _⟩ := expiryRefusal_eq_none.mp accepted
    exact unpinned isPinned
  · have split : catalog.run (earlier ++ rest) = (catalog.run earlier).run rest :=
      List.foldl_append
    rw [split]
    exact retagged_refused (sound.run earlier) tagged apart

-- Tagged and untagged again within one millisecond

/-- Pushed as `v1`, and untagged ten milliseconds after the epoch. -/
def untaggedAtTen : ManifestCatalog :=
  ManifestCatalog.run {} [.manifestCommit (sampleCommit "v1"), .deleteTag ⟨"web", "v1", 10⟩]

/-- A planned expiry goes through though its manifest was tagged and untagged in between: the two
untaggings carry the same millisecond. -/
theorem retagged_within_millisecond_expires
    : ¬∀ now retain, ∀ expire ∈ untaggedAtTen.expirableManifests now retain ∅,
        ∀ earlier rest : List CatalogOp,
          ((untaggedAtTen.run earlier).getRepositoryManifest expire.repository
              expire.digest.text).any hasRealTag = true
          → ∃ reason, (untaggedAtTen.run (earlier ++ rest)).applyExpireManifest expire ∅
              = .error reason := by
  intro refuses
  obtain ⟨_, refused⟩ := refuses 10 0 ⟨"web", sampleDigest, 10⟩ (by decide +kernel)
    [.manifestCommit (sampleCommit "v1")] [.deleteTag ⟨"web", "v1", 10⟩] (by decide +kernel)
  have accepted : ((untaggedAtTen.run [.manifestCommit (sampleCommit "v1"),
      .deleteTag ⟨"web", "v1", 10⟩]).applyExpireManifest ⟨"web", sampleDigest, 10⟩ ∅).isOk
      = true := by
    decide +kernel
  simp only [List.cons_append, List.nil_append] at refused
  rw [refused] at accepted
  cases accepted

/-- Untagged again a millisecond later, the plan is out of date. -/
theorem retagged_later_survives
    : ∃ reason,
        (untaggedAtTen.run [.manifestCommit (sampleCommit "v1"),
          .deleteTag ⟨"web", "v1", 11⟩]).applyExpireManifest ⟨"web", sampleDigest, 10⟩ ∅
        = .error reason := by
  have planned : (⟨"web", sampleDigest, 10⟩ : ExpireManifest)
      ∈ untaggedAtTen.expirableManifests 10 0 ∅ := by
    decide +kernel
  obtain ⟨reason, refused, _⟩ := ((expiry_spares_reached
    [.manifestCommit (sampleCommit "v1"), .deleteTag ⟨"web", "v1", 10⟩] ∅).2 10 0 _ planned).2
    [.manifestCommit (sampleCommit "v1"), .deleteTag ⟨"web", "v1", 11⟩] ∅
    (.inr ⟨[.manifestCommit (sampleCommit "v1")], [.deleteTag ⟨"web", "v1", 11⟩], rfl,
      by decide +kernel, fun stamped => by simpa using stamped.1.2, trivial⟩)
  exact ⟨reason, refused⟩

end ManifestCatalog

end Reliaburger
