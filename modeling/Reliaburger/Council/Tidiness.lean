import Reliaburger.Council.Readability

/-! What is kept about apps: every note is of a stored app, an autoscale override is one per app and
inside the bounds of its spec, and a seal is of an encrypted value that an app stores.
-/

namespace Reliaburger

open Checks BTreeMap SecurityState CouncilRequest

namespace DesiredState

variable {S : Surroundings} {state next : DesiredState} {entry : CouncilEntry}
  {writes : List (AppId × AppSpec)} {removes : List AppId}

-- Notes

/-- An app that some table other than the apps themselves names. -/
def IsNoted (state : DesiredState) (appId : AppId) : Prop :=
  appId ∈ state.declaredApps
  ∨ appId ∈ state.stoppedApps
  ∨ appId ∈ state.rollouts
  ∨ appId ∈ state.quotaBlocked
  ∨ appId ∈ state.unschedulable
  ∨ appId ∈ state.gitopsOwned.apps

/-- Only stored apps are noted, and GitOps owns none that a controller claimed. -/
structure Noted (state : DesiredState) : Prop where
  stored : ∀ appId, state.IsNoted appId → appId ∈ state.apps
  unclaimed : ∀ appId ∈ state.gitopsOwned.apps, ∀ spec,
    state.apps[appId]? = some spec → spec.owner = none

variable {appId : AppId} {spec : AppSpec} {security : SecurityState}

/-- Applying a spec notes nothing new. -/
theorem isNoted_apply {other : AppId} (noted : (state.applyAppSpec appId spec).IsNoted other)
    : state.IsNoted other := by
  rcases noted with declared | stopped | rollouts | quota | unschedulable | owned
  · simp only [applyAppSpec] at declared
    split at declared
    · exact .inl declared
    · exact .inl (mem_erase.mp declared).2
  · exact .inr (.inl (BTreeSet.mem_erase.mp stopped).2)
  · refine .inr (.inr (.inl ?_))
    simp only [applyAppSpec] at rollouts
    split at rollouts
    · exact rollouts
    split at rollouts
    · rename_i found
      rcases mem_insert.mp rollouts with rfl | kept
      · exact mem_iff.mpr ⟨_, found⟩
      · exact kept
    · exact rollouts
  · exact .inr (.inr (.inr (.inl quota)))
  · exact .inr (.inr (.inr (.inr (.inl unschedulable))))
  · refine .inr (.inr (.inr (.inr (.inr ?_))))
    simp only [applyAppSpec] at owned
    split at owned
    · exact (BTreeSet.mem_erase.mp owned).2
    · exact owned

theorem noted_apply (noted : Noted state) (appId : AppId) (spec : AppSpec)
    : Noted (state.applyAppSpec appId spec) := by
  refine ⟨fun other named => mem_insert.mpr (.inr (noted.stored other (isNoted_apply named))),
    fun other owned found stored => ?_⟩
  simp only [applyAppSpec] at owned
  rcases get_insert_cases stored with ⟨rfl, rfl⟩ | stored
  · cases claimed : spec.owner with
    | none => rfl
    | some owner => simp [claimed] at owned
  · refine noted.unclaimed other ?_ found stored
    split at owned
    · exact (BTreeSet.mem_erase.mp owned).2
    · exact owned

theorem noted_remove (noted : Noted state) (appId : AppId) : Noted (state.withoutApp appId) := by
  refine ⟨fun other named => ?_, fun other owned found stored => ?_⟩
  · have both : other ≠ appId ∧ state.IsNoted other := by
      simp only [IsNoted, withoutApp, mem_erase, BTreeSet.mem_erase] at named ⊢
      tauto
    exact mem_erase.mpr ⟨both.1, noted.stored other both.2⟩
  · obtain ⟨apart, owned⟩ := BTreeSet.mem_erase.mp owned
    simp only [withoutApp, get_erase_ne _ apart.symm] at stored
    exact noted.unclaimed other owned found stored

theorem mem_notesOfApps {Note : Type} {notes : List (AppId × Note)}
    (noted : appId ∈ state.notesOfApps notes)
    : appId ∈ state.apps := by
  by_contra absent
  have kept : ∀ note ∈ notes.filter (fun note => state.apps.contains note.1), note.1 ≠ appId := by
    rintro _ listed rfl
    exact absent (Std.ExtTreeMap.mem_iff_contains.mpr (List.mem_filter.mp listed).2)
  rw [mem_iff, notesOfApps, get_foldl_insert_of_absent kept] at noted
  simp at noted

/-- Notes that are old or of stored apps leave the notes in order. -/
theorem Noted.note (noted : Noted state) (apps : next.apps = state.apps)
    (owned : next.gitopsOwned.apps = state.gitopsOwned.apps)
    (named : ∀ other, next.IsNoted other → state.IsNoted other ∨ other ∈ state.apps)
    : Noted next := by
  refine ⟨fun other isNoted => ?_, ?_⟩
  · rw [apps]
    exact (named other isNoted).elim (noted.stored other) id
  · rw [apps, owned]
    exact noted.unclaimed

theorem noted_edit (edit : Edit writes removes state next) (noted : Noted state) : Noted next := by
  cases edit with
  | elsewhere same =>
    have apps := same .apps (by simp)
    have records := same .records (by simp)
    simp only [Area.Agrees] at apps records
    obtain ⟨declared, stopped, rollouts, quota, unschedulable, _, owned⟩ := records
    refine noted.note apps (by rw [owned]) fun appId named => .inl ?_
    rwa [IsNoted, declared, stopped, rollouts, quota, unschedulable, owned] at named
  | apply appId spec listed => exact noted_apply noted appId spec
  | remove appId listed => exact noted_remove noted appId
  | release appId spec found =>
    refine ⟨fun other named => mem_insert.mpr (.inr (noted.stored other named)),
      fun other owned stored atKey => ?_⟩
    rcases get_insert_cases atKey with ⟨_, rfl⟩ | before
    · rfl
    · exact noted.unclaimed other owned stored before
  | stop | rollout =>
    rename_i present
    refine noted.note rfl rfl fun other named => ?_
    have stored : other = _ → other ∈ state.apps := fun same => same ▸ present
    simp only [IsNoted, BTreeSet.mem_insert, mem_insert] at named ⊢
    tauto
  | override appId spec autoscale replicas found scales => exact ⟨noted.stored, noted.unclaimed⟩
  | quota notes | unschedulable notes =>
    refine noted.note rfl rfl fun other named => ?_
    have stored : other ∈ state.notesOfApps notes → other ∈ state.apps := mem_notesOfApps
    simp only [IsNoted] at named ⊢
    tauto
  | own appId spec found unclaimed =>
    refine ⟨fun other named => ?_, fun other owned stored atKey => ?_⟩
    · have present : other = appId → other ∈ state.apps := fun same =>
        same ▸ mem_iff.mpr ⟨spec, found⟩
      have stored := noted.stored other
      simp only [IsNoted, BTreeSet.mem_insert] at named stored
      tauto
    · rcases BTreeSet.mem_insert.mp owned with rfl | owned
      · rw [found] at atKey
        cases atKey
        exact unclaimed
      · exact noted.unclaimed other owned stored atKey
  | gitops owned same =>
    refine noted.note rfl same fun other named => ?_
    simp only [IsNoted, same] at named
    exact .inl named
  | declare appId declared present =>
    refine noted.note rfl rfl fun other named => ?_
    rcases named with named | named
    · cases declared with
      | none => exact .inl (.inl (mem_erase.mp named).2)
      | some spec =>
        rcases mem_insert.mp named with rfl | named
        · exact .inr present
        · exact .inl (.inl named)
    · exact .inl (.inr named)

-- Autoscale overrides

def BoundsOrdered (spec : AppSpec) : Prop :=
  ∀ autoscale, spec.autoscale = some autoscale → autoscale.min ≤ autoscale.max

/-- The row of the override table is of a stored app that scales, inside its bounds. -/
def IsInside (apps : BTreeMap AppId AppSpec) (row : String × Nat) : Prop :=
  ∃ (appId : AppId) (spec : AppSpec) (autoscale : AutoscaleSpec),
    row.1 = appId.text
    ∧ apps[appId]? = some spec
    ∧ spec.autoscale = some autoscale
    ∧ autoscale.min ≤ row.2
    ∧ row.2 ≤ autoscale.max

/-- Overrides are one per app and inside the bounds of the app's spec. -/
structure Scaled (state : DesiredState) : Prop where
  ordered : ∀ (appId : AppId) (spec : AppSpec), state.apps[appId]? = some spec → BoundsOrdered spec
  unique : Rows.Unique Prod.fst state.autoscaleOverrides
  inside : ∀ row ∈ state.autoscaleOverrides, IsInside state.apps row

theorem clampToBounds_inside {autoscale : AutoscaleSpec} (ordered : autoscale.min ≤ autoscale.max)
    (replicas : Nat)
    : autoscale.min ≤ clampToBounds replicas autoscale
      ∧ clampToBounds replicas autoscale ≤ autoscale.max := by
  unfold clampToBounds
  omega

/-- A row of another app is not touched by a change of one app. -/
theorem IsInside.other {apps after : BTreeMap AppId AppSpec} {row : String × Nat}
    (inside : IsInside apps row) (apart : row.1 ≠ appId.text)
    (kept : ∀ other : AppId, other ≠ appId → after[other]? = apps[other]?)
    : IsInside after row := by
  obtain ⟨other, spec, autoscale, named, found, scales⟩ := inside
  refine ⟨other, spec, autoscale, named, ?_, scales⟩
  rw [kept other fun same => apart (same ▸ named), found]

theorem mem_overridesAfter {row : String × Nat} (listed : row ∈ state.overridesAfter appId spec)
    : (row ∈ state.autoscaleOverrides ∧ row.1 ≠ appId.text)
      ∨ ∃ autoscale replicas, spec.autoscale = some autoscale
          ∧ row = (appId.text, clampToBounds replicas autoscale) := by
  have keeps {entry : String × Nat} {drops : Bool}
      (kept : entry ∈
        if drops then state.autoscaleOverrides.filter (fun entry => entry.1 != appId.text)
        else state.autoscaleOverrides)
      : entry ∈ state.autoscaleOverrides := by
    split at kept
    · exact List.mem_of_mem_filter kept
    · exact kept
  unfold overridesAfter at listed
  dsimp only at listed
  split at listed
  · obtain ⟨kept, apart⟩ := List.mem_filter.mp listed
    exact .inl ⟨keeps kept, by simpa using apart⟩
  rename_i autoscale scales
  obtain ⟨entry, kept, rfl⟩ := List.mem_map.mp listed
  split
  · next named => exact .inr ⟨autoscale, entry.2, scales, by rw [named]⟩
  · next apart => exact .inl ⟨keeps kept, apart⟩

theorem unique_overridesAfter (unique : Rows.Unique Prod.fst state.autoscaleOverrides)
    : Rows.Unique Prod.fst (state.overridesAfter appId spec) := by
  have kept (drops : Bool)
      : Rows.Unique Prod.fst
          (if drops then state.autoscaleOverrides.filter (fun entry => entry.1 != appId.text)
          else state.autoscaleOverrides) := by
    split
    · exact unique.filter _
    · exact unique
  unfold overridesAfter
  dsimp only
  split
  · exact (kept _).filter _
  · refine (kept _).map fun entry => ?_
    split <;> rfl

theorem scaled_apply (scaled : Scaled state) (ordered : BoundsOrdered spec)
    : Scaled (state.applyAppSpec appId spec) := by
  refine ⟨fun other found stored => ?_, unique_overridesAfter scaled.unique, fun row listed => ?_⟩
  · rcases get_insert_cases stored with ⟨_, rfl⟩ | before
    · exact ordered
    · exact scaled.ordered other found before
  · rcases mem_overridesAfter listed with ⟨old, apart⟩ | ⟨autoscale, replicas, scales, rfl⟩
    · exact (scaled.inside row old).other apart fun other different =>
        get_insert_ne _ _ different.symm
    · exact ⟨appId, spec, autoscale, rfl, get_insert_self _ _ _, scales,
        clampToBounds_inside (ordered autoscale scales) replicas⟩

theorem scaled_remove (scaled : Scaled state) (appId : AppId)
    : Scaled (state.withoutApp appId) := by
  refine ⟨fun other found stored => ?_, scaled.unique.filter _, fun row listed => ?_⟩
  · simp only [withoutApp, get_erase] at stored
    split at stored
    · cases stored
    · exact scaled.ordered other found stored
  · obtain ⟨old, apart⟩ := List.mem_filter.mp listed
    exact (scaled.inside row old).other (by simpa using apart) fun other different =>
      get_erase_ne _ different.symm

/-- Where specs change but for their bounds, overrides stay inside. -/
theorem Scaled.respec (scaled : Scaled state)
    (overrides : next.autoscaleOverrides = state.autoscaleOverrides)
    (bounds : ∀ appId : AppId, next.apps[appId]?.map AppSpec.autoscale
        = state.apps[appId]?.map AppSpec.autoscale)
    : Scaled next := by
  refine ⟨fun appId changed stored autoscale scales => ?_, by rw [overrides]; exact scaled.unique,
    fun row listed => ?_⟩
  · have same := bounds appId
    rw [stored, Option.map_some, eq_comm, Option.map_eq_some_iff] at same
    obtain ⟨spec, found, same⟩ := same
    exact scaled.ordered appId spec found autoscale (same.trans scales)
  · rw [overrides] at listed
    obtain ⟨appId, _, autoscale, named, found, scales, inside⟩ := scaled.inside row listed
    have same := bounds appId
    rw [found, Option.map_some, Option.map_eq_some_iff] at same
    obtain ⟨changed, stored, same⟩ := same
    exact ⟨appId, changed, autoscale, named, stored, same.trans scales, inside⟩

theorem scaled_edit (ordered : ∀ write ∈ writes, BoundsOrdered write.2)
    (edit : Edit writes removes state next) (scaled : Scaled state)
    : Scaled next := by
  cases edit with
  | elsewhere same =>
    have apps := same .apps (by simp)
    have records := same .records (by simp)
    simp only [Area.Agrees] at apps records
    exact scaled.respec records.2.2.2.2.2.1 fun appId => by rw [apps]
  | apply appId spec listed => exact scaled_apply scaled (ordered _ listed)
  | remove appId listed => exact scaled_remove scaled appId
  | release appId spec found =>
    refine scaled.respec rfl fun other => ?_
    rw [get_insert]
    split
    · rename_i same
      rw [← same, found]
      rfl
    · rfl
  | override appId spec autoscale replicas found scales =>
    have selects (row : String × Nat)
        : (row.1 == appId.text) = true
          ↔ row.1 = (appId.text, clampToBounds replicas autoscale).1 := beq_iff_eq
    have inside : IsInside state.apps (appId.text, clampToBounds replicas autoscale) :=
      ⟨appId, spec, autoscale, rfl, found, scales,
        clampToBounds_inside (scaled.ordered appId spec found autoscale scales) replicas⟩
    refine ⟨scaled.ordered, scaled.unique.changeOrPush selects fun _ _ => rfl, fun row listed => ?_⟩
    rcases (Rows.mem_changeOrPush scaled.unique selects).mp listed with
      ⟨_, _, named, rfl⟩ | ⟨kept, _⟩ | ⟨rfl, _⟩
    · rw [named]
      exact inside
    · exact scaled.inside row kept
    · exact inside
  | _ => exact ⟨scaled.ordered, scaled.unique, scaled.inside⟩

-- Seals

/-- Every seal is of an encrypted value that an app stores. -/
def SealsNamed (state : DesiredState) : Prop :=
  ∀ key ∈ state.security.secretSeals, ∃ appId envKey text,
    key = sealKey appId envKey
    ∧ slot state.apps appId envKey = some (.encrypted text)

theorem sealsNamed_apply (named : SealsNamed state) (appId : AppId) (spec : AppSpec)
    : SealsNamed (state.applyAppSpec appId spec) := by
  intro key listed
  simp only [applyAppSpec, slot_insert]
  rcases mem_recordSecretSeals listed with ⟨old, apart⟩ | ⟨envKey, encrypted, rfl⟩
  · obtain ⟨other, envKey, text, rfl, stored⟩ := named key old
    have different : other ≠ appId := by
      rintro rfl
      rw [startsWith_sealKey_self] at apart
      cases apart
    exact ⟨other, envKey, text, rfl, by rw [if_neg different]; exact stored⟩
  · obtain ⟨text, stored⟩ := mem_encryptedKeys.mp encrypted
    exact ⟨appId, envKey, text, rfl, by rw [if_pos rfl]; exact stored⟩

theorem sealsNamed_remove (named : SealsNamed state) (appId : AppId)
    : SealsNamed (state.withoutApp appId) := by
  intro key listed
  obtain ⟨old, apart⟩ := mem_withoutSeals.mp listed
  obtain ⟨other, envKey, text, rfl, stored⟩ := named key old
  have different : other ≠ appId := by
    rintro rfl
    rw [startsWith_sealKey_self] at apart
    cases apart
  refine ⟨other, envKey, text, rfl, ?_⟩
  rw [withoutApp, slot_erase, if_neg different, stored]

theorem sealsNamed_edit (edit : Edit writes removes state next) (named : SealsNamed state)
    : SealsNamed next := by
  cases edit with
  | elsewhere same =>
    have apps := same .apps (by simp)
    have seals := same .seals (by simp)
    simp only [Area.Agrees] at apps seals
    rw [SealsNamed, apps, seals]
    exact named
  | apply appId spec listed => exact sealsNamed_apply named appId spec
  | remove appId listed => exact sealsNamed_remove named appId
  | release appId spec found =>
    simp only [SealsNamed, slot_release found]
    exact named
  | _ => exact named

-- Every encrypted value sealed

/-- A spec whose encrypted values are sealed when it is written: a key for them is there. -/
def SealedWrite (security : SecurityState) (appId : AppId) (spec : AppSpec) : Prop :=
  appId.SlashFree
  ∧ (spec.encryptedKeys ≠ []
    → (security.activeAgeKeypair (security.effectiveSecretScope appId.ns)).isSome)

/-- Every encrypted value has a seal, and there are keys if there is one. -/
structure FullySealed (state : DesiredState) : Prop where
  slashFree : ∀ appId ∈ state.apps, appId.SlashFree
  keyed : ∀ appId envKey text, slot state.apps appId envKey = some (.encrypted text)
    → state.security.ageKeypairs ≠ []
  recorded : ∀ appId envKey text, slot state.apps appId envKey = some (.encrypted text)
    → sealKey appId envKey ∈ state.security.secretSeals

theorem mem_recordSecretSeals_own {envKey : String} (slashFree : appId.SlashFree)
    (active : (security.activeAgeKeypair (security.effectiveSecretScope appId.ns)).isSome)
    (encrypted : envKey ∈ spec.encryptedKeys)
    : sealKey appId envKey ∈ (security.recordSecretSeals appId spec).secretSeals := by
  obtain ⟨_, found⟩ := Option.isSome_iff_exists.mp active
  rw [mem_iff, get_recordSecretSeals slashFree slashFree, if_pos rfl, found,
    Option.bind_some, if_pos encrypted]
  exact ⟨_, rfl⟩

theorem fullySealed_apply (sealed : FullySealed state)
    (write : SealedWrite state.security appId spec)
    : FullySealed (state.applyAppSpec appId spec) := by
  have encrypted {envKey text : String} (stored : spec.env[envKey]? = some (.encrypted text))
      : envKey ∈ spec.encryptedKeys :=
    mem_encryptedKeys.mpr ⟨text, stored⟩
  refine ⟨fun other present => ?_, fun other envKey text stored => ?_,
    fun other envKey text stored => ?_⟩
  · rcases mem_insert.mp present with rfl | present
    · exact write.1
    · exact sealed.slashFree other present
  · rw [applyAppSpec, slot_insert] at stored
    split at stored
    · intro none
      replace none : state.security.ageKeypairs = [] := none
      have active := write.2 (List.ne_nil_of_mem (encrypted stored))
      simp [activeAgeKeypair, none, Extremes.maxBy] at active
    · exact sealed.keyed other envKey text stored
  · rw [applyAppSpec, slot_insert] at stored
    split at stored
    · rename_i same
      subst same
      exact mem_recordSecretSeals_own write.1
        (write.2 (List.ne_nil_of_mem (encrypted stored))) (encrypted stored)
    · rename_i apart
      have otherFree := sealed.slashFree other (mem_of_slot stored)
      rw [mem_iff, applyAppSpec, get_recordSecretSeals write.1 otherFree, if_neg apart, ← mem_iff]
      exact sealed.recorded other envKey text stored

theorem fullySealed_remove (sealed : FullySealed state) (slashFree : appId.SlashFree)
    : FullySealed (state.withoutApp appId) := by
  have kept {other : AppId} {envKey text : String}
      (stored : slot (state.withoutApp appId).apps other envKey = some (.encrypted text))
      : other ≠ appId ∧ slot state.apps other envKey = some (.encrypted text) := by
    rw [withoutApp, slot_erase] at stored
    split at stored
    · cases stored
    · next apart => exact ⟨apart, stored⟩
  refine ⟨fun other present => sealed.slashFree other (mem_erase.mp present).2,
    fun other envKey text stored => sealed.keyed other envKey text (kept stored).2,
    fun other envKey text stored => ?_⟩
  obtain ⟨apart, stored⟩ := kept stored
  have otherFree := sealed.slashFree other (mem_of_slot stored)
  rw [mem_iff, withoutApp, get_withoutSeals slashFree otherFree, if_neg apart, ← mem_iff]
  exact sealed.recorded other envKey text stored

/-- Where apps store the same values, under the same seals and keys, they are sealed as before. -/
theorem FullySealed.congr (sealed : FullySealed state)
    (apps : ∀ appId, appId ∈ next.apps ↔ appId ∈ state.apps)
    (slots : ∀ appId envKey, slot next.apps appId envKey = slot state.apps appId envKey)
    (seals : next.security.secretSeals = state.security.secretSeals)
    (keys : state.security.ageKeypairs ≠ [] → next.security.ageKeypairs ≠ [])
    : FullySealed next := by
  refine ⟨fun appId present => sealed.slashFree appId ((apps appId).mp present),
    fun appId envKey text stored => ?_, fun appId envKey text stored => ?_⟩
  · rw [slots] at stored
    exact keys (sealed.keyed appId envKey text stored)
  · rw [slots] at stored
    rw [seals]
    exact sealed.recorded appId envKey text stored

theorem fullySealed_edit
    (written : ∀ write ∈ writes, SealedWrite state.security write.1 write.2)
    (removed : ∀ appId ∈ removes, appId.SlashFree)
    (edit : Edit writes removes state next) (sealed : FullySealed state)
    : FullySealed next ∧ next.security.ageKeypairs = state.security.ageKeypairs := by
  cases edit with
  | elsewhere same =>
    have apps := same .apps (by simp)
    have seals := same .seals (by simp)
    have keys := same .ageKeypairs (by simp)
    simp only [Area.Agrees] at apps seals keys
    exact ⟨sealed.congr (by simp [apps]) (by simp [apps]) seals (by simp [keys]), keys⟩
  | apply appId spec listed => exact ⟨fullySealed_apply sealed (written _ listed), rfl⟩
  | remove appId listed => exact ⟨fullySealed_remove sealed (removed _ listed), rfl⟩
  | release appId spec found =>
    refine ⟨sealed.congr (fun other => ?_) (slot_release found) rfl id, rfl⟩
    rw [mem_insert]
    refine ⟨?_, .inr⟩
    rintro (rfl | present)
    · exact mem_iff.mpr ⟨spec, found⟩
    · exact present
  | _ => exact ⟨sealed.congr (fun _ => .rfl) (fun _ _ => rfl) rfl id, rfl⟩

/-- Whether a spec's values are sealed depends on the keys only. -/
theorem SealedWrite.congr {after : SecurityState} (write : SealedWrite security appId spec)
    (keys : after.ageKeypairs = security.ageKeypairs)
    : SealedWrite after appId spec := by
  have scope : after.effectiveSecretScope appId.ns = security.effectiveSecretScope appId.ns := by
    simp only [effectiveSecretScope, keys]
  refine ⟨write.1, fun encrypted => ?_⟩
  have active := write.2 encrypted
  rw [scope]
  simpa only [activeAgeKeypair, keys] using active

theorem fullySealed_edits (edits : Edits writes removes state next)
    (written : ∀ write ∈ writes, SealedWrite state.security write.1 write.2)
    (removed : ∀ appId ∈ removes, appId.SlashFree) (sealed : FullySealed state)
    : FullySealed next := by
  refine (edits.invariant (fun middle => FullySealed middle
    ∧ middle.security.ageKeypairs = state.security.ageKeypairs) ?_ ⟨sealed, rfl⟩).1
  rintro _ _ edit ⟨sealed, keys⟩
  obtain ⟨sealed, kept⟩ := fullySealed_edit
    (fun write listed => (written write listed).congr keys) removed edit sealed
  exact ⟨sealed, kept.trans keys⟩

-- Rotations

section

variable {scope : AgeKeyScope} {keypair : AgeKeypair} {resealed : List ResealedSecret}

/-- Re-sealing changes nothing of a spec but its values. -/
theorem map_resealed {Part : Type} {part : AppSpec → Part}
    (blind : ∀ spec env, part { spec with env } = part spec) (apps : BTreeMap AppId AppSpec)
    (appId : AppId)
    : (resealed.foldl resealValue apps)[appId]?.map part = apps[appId]?.map part := by
  induction resealed generalizing apps with
  | nil => rfl
  | cons item rest ih =>
    rw [List.foldl_cons, ih]
    unfold resealValue
    split
    · rfl
    rename_i spec found
    rw [get_insert]
    split
    · next same => rw [← same, found, Option.map_some, Option.map_some, blind]
    · rfl

/-- A value that was encrypted is so after others were re-sealed. -/
theorem encrypted_resealed {apps : BTreeMap AppId AppSpec} {appId : AppId} {envKey text : String}
    (stored : slot apps appId envKey = some (.encrypted text))
    : ∃ text', slot (resealed.foldl resealValue apps) appId envKey = some (.encrypted text') := by
  rcases slot_resealed envKey (mem_of_slot stored) with ⟨item, _, _, _, after⟩ | ⟨_, same⟩
  · exact ⟨item.sealed, after⟩
  · exact ⟨text, same.trans stored⟩

variable {security : SecurityState} {ns : String}

/-- A seal after those of several apps were recorded was there before, or names an encrypted value
of one of them. -/
theorem mem_recordSecretSeals_fold {entries : List (AppId × AppSpec)} {key : String}
    (recorded : key ∈ (entries.foldl (fun security entry =>
        security.recordSecretSeals entry.1 entry.2) security).secretSeals)
    : key ∈ security.secretSeals
      ∨ ∃ entry ∈ entries, ∃ envKey ∈ entry.2.encryptedKeys, key = sealKey entry.1 envKey := by
  induction entries generalizing security with
  | nil => exact .inl recorded
  | cons entry rest ih =>
    rcases ih recorded with before | ⟨other, listed, named⟩
    · rcases mem_recordSecretSeals before with ⟨old, _⟩ | named
      · exact .inl old
      · exact .inr ⟨entry, List.mem_cons_self, named⟩
    · exact .inr ⟨other, List.mem_cons_of_mem _ listed, named⟩

/-- The seals of an app among those recorded, with a key to seal under. -/
theorem mem_recordSecretSeals_fold_own {entries : List (AppId × AppSpec)} {appId : AppId}
    {spec : AppSpec} {envKey : String} (slashFree : appId.SlashFree)
    (free : ∀ entry ∈ entries, entry.1.SlashFree) (listed : (appId, spec) ∈ entries)
    (once : (entries.map Prod.fst).Nodup)
    (active : (security.activeAgeKeypair (security.effectiveSecretScope appId.ns)).isSome)
    (encrypted : envKey ∈ spec.encryptedKeys)
    : sealKey appId envKey ∈ (entries.foldl (fun security entry =>
        security.recordSecretSeals entry.1 entry.2) security).secretSeals := by
  induction entries generalizing security with
  | nil => cases listed
  | cons entry rest ih =>
    rw [List.forall_mem_cons] at free
    rw [List.map_cons, List.nodup_cons] at once
    rw [List.foldl_cons]
    rcases List.mem_cons.mp listed with rfl | later
    · have apart : ∀ entry ∈ rest, entry.1 ≠ appId := by
        intro entry inRest same
        exact once.1 (List.mem_map.mpr ⟨entry, inRest, same⟩)
      rw [mem_iff, recordSecretSeals_fold_other slashFree free.2 apart, ← mem_iff]
      exact mem_recordSecretSeals_own slashFree active encrypted
    · exact ih free.2 later once.2 active

/-- What a started rotation leaves of the state: only values change, and seals. -/
theorem started_cases
    : state.started scope keypair resealed = state.rotated scope keypair
      ∨ ∃ ns, scope = .namespaced ns
          ∧ state.started scope keypair resealed
            = (state.rotated scope keypair).adoptNamespaceKey ns resealed := by
  unfold started
  split
  · exact .inl rfl
  rename_i ns
  split
  · exact .inr ⟨ns, rfl, rfl⟩
  · exact .inl rfl

theorem noted_adopt (noted : Noted state)
    : Noted (state.adoptNamespaceKey ns resealed) := by
  refine ⟨fun appId named => mem_resealed.mpr (noted.stored appId named),
    fun appId owned changed stored => ?_⟩
  have same : (resealed.foldl resealValue state.apps)[appId]?.map AppSpec.owner
      = state.apps[appId]?.map AppSpec.owner :=
    map_resealed (fun _ _ => rfl) state.apps appId
  rw [show (resealed.foldl resealValue state.apps)[appId]? = some changed from stored,
    Option.map_some, eq_comm, Option.map_eq_some_iff] at same
  obtain ⟨spec, found, same⟩ := same
  exact same ▸ noted.unclaimed appId owned spec found

theorem sealsNamed_adopt (named : SealsNamed state)
    : SealsNamed (state.adoptNamespaceKey ns resealed) := by
  intro key listed
  rcases mem_recordSecretSeals_fold listed with old | ⟨entry, inside, envKey, encrypted, rfl⟩
  · obtain ⟨appId, envKey, text, rfl, stored⟩ := named key old
    obtain ⟨text', stored⟩ := @encrypted_resealed resealed _ _ _ _ stored
    exact ⟨appId, envKey, text', rfl, stored⟩
  · obtain ⟨text, value⟩ := mem_encryptedKeys.mp encrypted
    have found := mem_toList.mp (List.mem_of_mem_filter inside)
    refine ⟨entry.1, envKey, text, rfl, ?_⟩
    show slot (resealed.foldl resealValue state.apps) entry.1 envKey = some (.encrypted text)
    rw [slot, found, Option.bind_some, value]

theorem activeAgeKeypair_isSome (listed : keypair ∈ security.ageKeypairs)
    : (security.activeAgeKeypair keypair.scope).isSome := by
  rw [activeAgeKeypair, Option.isSome_or, Bool.or_eq_true]
  refine .inr (Option.isSome_iff_ne_none.mpr fun none => ?_)
  rw [Extremes.maxBy_eq_none, List.filter_eq_nil_iff] at none
  exact none keypair listed (by simp)

theorem fullySealed_adopt (sealed : FullySealed state) (own : keypair.scope = .namespaced ns)
    (ofNamespace : ∀ item ∈ resealed, item.appId.ns = ns)
    : FullySealed ((state.rotated (.namespaced ns) keypair).adoptNamespaceKey ns resealed) := by
  let apps := resealed.foldl resealValue state.apps
  let inNamespace := apps.toList.filter (fun entry => entry.1.ns == ns)
  have slashFree : ∀ appId ∈ apps, appId.SlashFree :=
    fun appId present => sealed.slashFree appId (mem_resealed.mp present)
  have free : ∀ entry ∈ inNamespace, entry.1.SlashFree := by
    intro entry listed
    have found := mem_toList.mp (List.mem_of_mem_filter listed)
    exact slashFree _ (mem_iff.mpr ⟨_, found⟩)
  have present : keypair ∈ (state.rotated (.namespaced ns) keypair).security.ageKeypairs :=
    mem_addKeypair.mpr (.inl rfl)
  refine ⟨slashFree, fun appId envKey text stored => ?_, fun appId envKey text stored => ?_⟩
  · rw [framed_adoptNamespaceKey _ _ _ .ageKeypairs (by simp)]
    exact List.ne_nil_of_mem present
  replace stored : slot apps appId envKey = some (.encrypted text) := stored
  have ownFree := slashFree appId (mem_of_slot stored)
  by_cases inside : appId.ns = ns
  · obtain ⟨_, found, value⟩ := Option.bind_eq_some_iff.mp stored
    have scope : (state.rotated (.namespaced ns) keypair).security.effectiveSecretScope appId.ns
        = keypair.scope := by
      rw [inside, own]
      exact effectiveSecretScope_of_key present own
    refine mem_recordSecretSeals_fold_own ownFree free
      (List.mem_filter.mpr ⟨mem_toList.mpr found, by simp [inside]⟩) ?_ ?_
      (mem_encryptedKeys.mpr ⟨text, value⟩)
    · exact (List.filter_sublist.map Prod.fst).nodup (nodup_keys_toList apps)
    · rw [scope]
      exact activeAgeKeypair_isSome present
  · have before : slot state.apps appId envKey = some (.encrypted text) := by
      rcases slot_resealed envKey (mem_resealed.mp (mem_of_slot stored)) with
        ⟨item, inList, named, _⟩ | ⟨_, same⟩
      · exact absurd (named ▸ ofNamespace item inList) inside
      · exact same.symm.trans stored
    have apart : ∀ entry ∈ inNamespace, entry.1 ≠ appId := by
      rintro entry inList rfl
      exact inside (by simpa using (List.mem_filter.mp inList).2)
    have kept : sealKey appId envKey ∈ (inNamespace.foldl (fun security entry =>
        security.recordSecretSeals entry.1 entry.2)
        (state.rotated (.namespaced ns) keypair).security).secretSeals := by
      rw [mem_iff, recordSecretSeals_fold_other ownFree free apart, ← mem_iff]
      exact sealed.recorded appId envKey text before
    exact kept

/-- A rotation keeps the tables in order. -/
theorem tidy_rotate {answer : CouncilResponse}
    (rotated : state.rotateSecretKey scope keypair resealed = .ok (answer, next))
    (tidy : Noted state ∧ Scaled state)
    : Noted next ∧ Scaled next := by
  obtain ⟨noted, scaled⟩ := tidy
  rcases (rotateSecretKey_eq_ok.mp rotated).2 with ⟨_, rfl⟩ | ⟨_, _, rfl⟩
  · exact ⟨noted, scaled⟩
  have noted : Noted (state.rotated scope keypair) := ⟨noted.stored, noted.unclaimed⟩
  have scaled : Scaled (state.rotated scope keypair) :=
    ⟨scaled.ordered, scaled.unique, scaled.inside⟩
  rcases @started_cases state scope keypair resealed with same | ⟨_, _, same⟩
  · rw [same]
    exact ⟨noted, scaled⟩
  · rw [same]
    exact ⟨noted_adopt noted, scaled.respec rfl (map_resealed (fun _ _ => rfl) _)⟩

theorem sealsNamed_rotate {answer : CouncilResponse}
    (rotated : state.rotateSecretKey scope keypair resealed = .ok (answer, next))
    (named : SealsNamed state)
    : SealsNamed next := by
  rcases (rotateSecretKey_eq_ok.mp rotated).2 with ⟨_, rfl⟩ | ⟨_, _, rfl⟩
  · exact named
  rcases @started_cases state scope keypair resealed with same | ⟨_, _, same⟩
  · rw [same]
    exact named
  · rw [same]
    exact sealsNamed_adopt named

theorem fullySealed_rotate {answer : CouncilResponse} (own : keypair.scope = scope)
    (rotated : state.rotateSecretKey scope keypair resealed = .ok (answer, next))
    (sealed : FullySealed state)
    : FullySealed next := by
  rcases (rotateSecretKey_eq_ok.mp rotated).2 with ⟨_, rfl⟩ | ⟨_, carried, rfl⟩
  · exact sealed
  rcases @started_cases state scope keypair resealed with same | ⟨_, rfl, same⟩
  · rw [same]
    refine sealed.congr (fun _ => .rfl) (fun _ _ => rfl) rfl fun _ => ?_
    exact List.ne_nil_of_mem (mem_addKeypair.mpr (.inl rfl))
  · rw [same]
    exact fullySealed_adopt sealed own (namespace_of_carried carried)

end

-- Runs

/-- An entry that writes specs as validation leaves them. -/
def ValidWrites (state : DesiredState) (entry : CouncilEntry) : Prop :=
  ∀ request, entry.payload = .request request
    → ∀ write ∈ request.writtenApps state, BoundsOrdered write.2

/-- An entry whose security tables, if it brings the first ones, hold no seals. -/
def SeedsNoSeals (_ : DesiredState) (entry : CouncilEntry) : Prop :=
  ∀ seed, entry.payload = .request (.securityStateInit seed) → seed.secretSeals = ∅

def SealsWrites (state : DesiredState) (entry : CouncilEntry) : Prop :=
  match entry.payload with
  | .request (.securityStateInit _) => True
  | .request (.rotateSecretKey scope keypair _) => keypair.scope = scope
  | .request request =>
    (∀ write ∈ request.writtenApps state, SealedWrite state.security write.1 write.2)
    ∧ ∀ appId ∈ request.removedApps state, appId.SlashFree
  | _ => True

theorem tidy_step (valid : ValidWrites state entry) (tidy : Noted state ∧ Scaled state)
    : Noted (state.step S entry) ∧ Scaled (state.step S entry) := by
  obtain ⟨noted, scaled⟩ := tidy
  have reached : Noted { state with lastApplied := some entry.logId }
      ∧ Scaled { state with lastApplied := some entry.logId } :=
    ⟨⟨noted.stored, noted.unclaimed⟩, ⟨scaled.ordered, scaled.unique, scaled.inside⟩⟩
  rcases step_cases S state entry with
    ⟨request, _, _, payload, handled, _, after⟩ | ⟨_, _, after⟩
  · rw [after]
    by_cases keysKept : Area.ageKeypairs ∉ request.touches
    · refine (handle_edits keysKept handled).invariant
        (fun middle => Noted middle ∧ Scaled middle) ?_ reached
      rintro _ after edit ⟨noted, scaled⟩
      exact ⟨noted_edit edit noted, scaled_edit (valid request payload) edit scaled⟩
    · cases request with
      | securityStateInit seed =>
        obtain ⟨_, _, accepted⟩ := bind_eq_ok.mp handled
        cases accepted
        exact ⟨⟨noted.stored, noted.unclaimed⟩, ⟨scaled.ordered, scaled.unique, scaled.inside⟩⟩
      | rotateSecretKey scope keypair resealed => exact tidy_rotate handled reached
      | finalizeSecretRotation scope =>
        obtain ⟨_, _, _, rfl⟩ := finalizeSecretRotation_eq_ok.mp handled
        exact ⟨⟨noted.stored, noted.unclaimed⟩, ⟨scaled.ordered, scaled.unique, scaled.inside⟩⟩
      | _ => simp [touches, specAreas] at keysKept
  · rw [after]
    exact ⟨⟨noted.stored, noted.unclaimed⟩, ⟨scaled.ordered, scaled.unique, scaled.inside⟩⟩

theorem sealsNamed_step (seeds : SeedsNoSeals state entry) (named : SealsNamed state)
    : SealsNamed (state.step S entry) := by
  rcases step_cases S state entry with
    ⟨request, _, _, payload, handled, _, after⟩ | ⟨_, _, after⟩
  · rw [after]
    by_cases keysKept : Area.ageKeypairs ∉ request.touches
    · exact (handle_edits keysKept handled).invariant SealsNamed
        (fun _ _ edit named => sealsNamed_edit edit named) named
    · cases request with
      | securityStateInit seed =>
        obtain ⟨_, _, accepted⟩ := bind_eq_ok.mp handled
        cases accepted
        intro key listed
        simp [withSecurity, seeds seed payload] at listed
      | rotateSecretKey scope keypair resealed => exact sealsNamed_rotate handled named
      | finalizeSecretRotation scope =>
        obtain ⟨_, _, _, rfl⟩ := finalizeSecretRotation_eq_ok.mp handled
        exact named
      | _ => simp [touches, specAreas] at keysKept
  · rw [after]
    exact named

theorem fullySealed_step (seals : SealsWrites state entry) (sealed : FullySealed state)
    : FullySealed (state.step S entry) := by
  have reached : FullySealed { state with lastApplied := some entry.logId } :=
    ⟨sealed.slashFree, sealed.keyed, sealed.recorded⟩
  rcases step_cases S state entry with
    ⟨request, _, _, payload, handled, _, after⟩ | ⟨_, _, after⟩
  · rw [after]
    by_cases keysKept : Area.ageKeypairs ∉ request.touches
    · have written : (∀ write ∈ request.writtenApps state,
            SealedWrite state.security write.1 write.2)
          ∧ ∀ appId ∈ request.removedApps state, appId.SlashFree := by
        cases request <;> first
          | (simp only [SealsWrites, payload] at seals; exact seals)
          | simp [touches] at keysKept
      exact fullySealed_edits (handle_edits keysKept handled) written.1 written.2 reached
    · cases request with
      | securityStateInit seed =>
        obtain ⟨none, _, rfl⟩ := securityStateInit_ok handled
        -- No key was there before, so nothing encrypted is stored.
        have nothing {appId : AppId} {envKey text : String}
            (stored : slot state.apps appId envKey = some (.encrypted text)) : False :=
          sealed.keyed appId envKey text stored none
        exact ⟨sealed.slashFree, fun _ _ _ stored => (nothing stored).elim,
          fun _ _ _ stored => (nothing stored).elim⟩
      | rotateSecretKey scope keypair resealed =>
        simp only [SealsWrites, payload] at seals
        exact fullySealed_rotate seals handled reached
      | finalizeSecretRotation scope =>
        obtain ⟨_, ⟨_, listed, writes⟩, _, rfl⟩ := finalizeSecretRotation_eq_ok.mp handled
        refine reached.congr (fun _ => .rfl) (fun _ _ => rfl) rfl fun _ => ?_
        refine List.ne_nil_of_mem (List.mem_filter.mpr ⟨(mem_keysOf.mp listed).1, ?_⟩)
        simp [survivesFinalize, writes]
      | _ => simp [touches, specAreas] at keysKept
  · rw [after]
    exact ⟨sealed.slashFree, sealed.keyed, sealed.recorded⟩

/-- Along every run from the empty state that writes validated specs, the tables kept beside the
apps name stored apps only and overrides are inside the bounds; seals are of stored encrypted values
if the first security tables bring none; and every such value has its seal if a key was there
whenever one was written. -/
theorem app_tables_tidy (S : Surroundings) (entries : List CouncilEntry)
    (valid : Runs.Meets (step S) ValidWrites {} entries)
    : Noted (run S {} entries)
      ∧ Scaled (run S {} entries)
      ∧ (Runs.Meets (step S) SeedsNoSeals {} entries
        → SealsNamed (run S {} entries)
          ∧ (Runs.Meets (step S) SealsWrites {} entries
            → ∀ key, key ∈ (run S {} entries).security.secretSeals
                ↔ ∃ appId envKey text,
                    key = sealKey appId envKey
                    ∧ slot (run S {} entries).apps appId envKey = some (.encrypted text))) := by
  obtain ⟨noted, scaled⟩ := valid.invariant (fun state => Noted state ∧ Scaled state)
    (fun _ _ tidy valid => tidy_step valid tidy)
    ⟨⟨by simp [IsNoted], by simp⟩, ⟨by simp, by simp [Rows.Unique], by simp⟩⟩
  refine ⟨noted, scaled, fun seeds => ?_⟩
  have named := seeds.invariant SealsNamed (fun _ _ named seeds => sealsNamed_step seeds named)
    (by simp [SealsNamed])
  refine ⟨named, fun seals key => ⟨named key, ?_⟩⟩
  have sealed := seals.invariant FullySealed (fun _ _ sealed seals => fullySealed_step seals sealed)
    ⟨by simp, by simp [slot], by simp [slot]⟩
  rintro ⟨appId, envKey, text, rfl, stored⟩
  exact sealed.recorded appId envKey text stored

/-- A value that is written before there is a key has no seal, and the first state of the security
tables may bring seals of no app. -/
theorem seals_not_exact
    : (¬ ∀ (S : Surroundings) (entries : List CouncilEntry),
        Runs.Meets (step S) ValidWrites {} entries
        → Runs.Meets (step S) SeedsNoSeals {} entries
        → ∀ appId envKey text,
            slot (run S {} entries).apps appId envKey = some (.encrypted text)
            → sealKey appId envKey ∈ (run S {} entries).security.secretSeals)
      ∧ ¬ ∀ (S : Surroundings) (entries : List CouncilEntry),
        Runs.Meets (step S) ValidWrites {} entries → SealsNamed (run S {} entries) := by
  constructor
  · intro exact
    have recorded := exact plainSurroundings
      (requestEntries 1 [.spec (.appSpec teamApp (secretApp "ENC[AGE:old]"))])
      ⟨by simp [ValidWrites, writtenApps, SpecWrite.writtenApps, BoundsOrdered, secretApp], trivial⟩
      ⟨by simp [SeedsNoSeals], trivial⟩ teamApp "TOKEN" "ENC[AGE:old]" (by decide +kernel)
    exact absurd recorded (by decide +kernel)
  · intro only
    have named := only plainSurroundings
      (requestEntries 1 [.securityStateInit
        { secretSeals := (∅ : BTreeMap String SecretSeal).insert "team/web/TOKEN"
            ⟨.clusterWide, 0⟩ }])
      ⟨by simp [ValidWrites, writtenApps], trivial⟩
    obtain ⟨_, _, _, _, stored⟩ := named "team/web/TOKEN" (by decide +kernel)
    have none : (run plainSurroundings {} (requestEntries 1 [.securityStateInit
        { secretSeals := (∅ : BTreeMap String SecretSeal).insert "team/web/TOKEN"
            ⟨.clusterWide, 0⟩ }])).apps = ∅ := by
      decide +kernel
    rw [none] at stored
    simp [slot] at stored

/-- An app of a cluster with a key, whose value is sealed. -/
theorem sealed_app_tidy
    : sealKey teamApp "TOKEN" ∈ sealedClusterWide.security.secretSeals := by
  have tidy := app_tables_tidy plainSurroundings (requestEntries 1
    [.securityStateInit { ageKeypairs := [sampleKey .clusterWide 0] },
      .spec (.appSpec teamApp (secretApp "ENC[AGE:old]"))]) ⟨by
        simp [ValidWrites, writtenApps], by
        simp [ValidWrites, writtenApps, SpecWrite.writtenApps, BoundsOrdered,
          secretApp], trivial⟩
  refine ((tidy.2.2 ⟨by simp [SeedsNoSeals], by simp [SeedsNoSeals], trivial⟩).2
    ⟨trivial, ⟨?_, by simp [removedApps, SpecWrite.removedApps]⟩, trivial⟩ _).mpr
    ⟨teamApp, "TOKEN", "ENC[AGE:old]", rfl, ?_⟩
  · intro write listed
    obtain rfl := List.mem_singleton.mp listed
    exact ⟨by decide, fun _ => by decide +kernel⟩
  · decide +kernel

end DesiredState

end Reliaburger
