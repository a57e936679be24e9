import Reliaburger.Council.Edits
import Reliaburger.Council.Secrets

/-! Secrets stay readable along runs in which every value is written as sealed under the key that is
recorded for it.
-/

namespace Reliaburger

open Checks SecurityState BTreeMap CouncilRequest

namespace DesiredState

variable {S : Surroundings} {sealedUnder : String → AgeKeyScope × Nat}
  {state next : DesiredState} {entry : CouncilEntry}

-- The condition

/-- A key that will not be retired unnoticed after it sealed a value now: the active one of the
namespace's scope, which is recorded for the value, or the one of the root CA's backup, which is
never retired. -/
def SealsSafely (security : SecurityState) (ns : String) (keypair : AgeKeypair) : Prop :=
  keypair ∈ security.decryptionKeypairs ns
  ∧ (keypair.opensRootCaBackup = true
    ∨ security.activeAgeKeypair (security.effectiveSecretScope ns) = some keypair)

def WrittenSafely (sealedUnder : String → AgeKeyScope × Nat) (security : SecurityState)
    (appId : AppId) (spec : AppSpec)
    : Prop :=
  appId.SlashFree
  ∧ ∀ (envKey text : String), spec.env[envKey]? = some (.encrypted text)
      → ∃ keypair, SealsSafely security appId.ns keypair
          ∧ (keypair.scope, keypair.generation) = sealedUnder text

/-- In no scope a read-only key is as new as one that encrypts. -/
def KeysOrdered (keypairs : List AgeKeypair) : Prop :=
  ∀ old ∈ keypairs, ∀ active ∈ keypairs,
    old.scope = active.scope
    → old.readOnly = true
    → active.readOnly = false
    → old.generation < active.generation

/-- A rotation brings a newer key of its scope; the first key of a namespace re-seals every
encrypted value of the namespace under itself. -/
def RotatesSafely (sealedUnder : String → AgeKeyScope × Nat) (state : DesiredState)
    (scope : AgeKeyScope) (keypair : AgeKeypair) (resealed : List ResealedSecret)
    : Prop :=
  (∃ old ∈ keysOf scope state.security.ageKeypairs, old.generation = keypair.generation)
  ∨ (keypair.scope = scope
    ∧ keypair.readOnly = false
    ∧ (∀ old ∈ keysOf scope state.security.ageKeypairs, old.generation < keypair.generation)
    ∧ (∀ item ∈ resealed, sealedUnder item.sealed = (keypair.scope, keypair.generation))
    ∧ ∀ ns, scope = .namespaced ns
        → keysOf scope state.security.ageKeypairs = []
        → ∀ appId envKey text, appId.ns = ns
            → slot state.apps appId envKey = some (.encrypted text)
            → ∃ item ∈ resealed, item.appId = appId ∧ item.envKey = envKey)

def KeepsReadable (sealedUnder : String → AgeKeyScope × Nat) (state : DesiredState)
    (entry : CouncilEntry)
    : Prop :=
  match entry.payload with
  | .request (.securityStateInit seed) => KeysOrdered seed.ageKeypairs
  | .request (.rotateSecretKey scope keypair resealed) =>
    RotatesSafely sealedUnder state scope keypair resealed
  | .request request =>
    ∀ write ∈ request.writtenApps state,
      WrittenSafely sealedUnder state.security write.1 write.2
  | _ => True

-- The invariant

/-- A key of a stored value's scope opens the value, and no other is recorded for the value unless
the key is never retired. -/
def SlotReadable (sealedUnder : String → AgeKeyScope × Nat) (security : SecurityState)
    (appId : AppId) (envKey text : String)
    : Prop :=
  ∃ keypair ∈ security.ageKeypairs,
    keypair.scope = security.effectiveSecretScope appId.ns
    ∧ (keypair.scope, keypair.generation) = sealedUnder text
    ∧ (keypair.opensRootCaBackup = true
      ∨ ∀ recorded, security.secretSeals[sealKey appId envKey]? = some recorded
          → recorded = ⟨keypair.scope, keypair.generation⟩)

structure Readable (sealedUnder : String → AgeKeyScope × Nat) (state : DesiredState)
    : Prop where
  ordered : KeysOrdered state.security.ageKeypairs
  slashFree : ∀ appId ∈ state.apps, appId.SlashFree
  slots : ∀ appId envKey text, slot state.apps appId envKey = some (.encrypted text)
    → SlotReadable sealedUnder state.security appId envKey text

variable {after security : SecurityState} {appId : AppId} {envKey text : String}

/-- A readable value stays so while the keys stay and no other seal is recorded for it. -/
theorem SlotReadable.congr (readable : SlotReadable sealedUnder security appId envKey text)
    (keys : after.ageKeypairs = security.ageKeypairs)
    (seals : ∀ recorded, after.secretSeals[sealKey appId envKey]? = some recorded
        → security.secretSeals[sealKey appId envKey]? = some recorded)
    : SlotReadable sealedUnder after appId envKey text := by
  have scope : after.effectiveSecretScope appId.ns = security.effectiveSecretScope appId.ns := by
    simp only [effectiveSecretScope, keys]
  obtain ⟨keypair, listed, ofScope, opens, kept⟩ := readable
  exact ⟨keypair, by rw [keys]; exact listed, by rw [scope]; exact ofScope, opens,
    kept.imp_right fun own recorded found => own recorded (seals recorded found)⟩

theorem readable_apply {spec : AppSpec} (readable : Readable sealedUnder state)
    (safely : WrittenSafely sealedUnder state.security appId spec)
    : Readable sealedUnder (state.applyAppSpec appId spec) := by
  refine ⟨readable.ordered, fun other present => ?_, fun other envKey text stored => ?_⟩
  · rw [applyAppSpec, mem_insert] at present
    rcases present with rfl | present
    · exact safely.1
    · exact readable.slashFree other present
  rw [applyAppSpec, slot_insert] at stored
  by_cases same : other = appId
  · subst same
    rw [if_pos rfl] at stored
    obtain ⟨keypair, ⟨listed, sealsSafely⟩, opens⟩ := safely.2 envKey text stored
    obtain ⟨listed, ofScope⟩ := mem_decryptionKeypairs.mp listed
    refine ⟨keypair, listed, ofScope, opens, sealsSafely.imp_right fun active recorded found => ?_⟩
    have encrypted : envKey ∈ spec.encryptedKeys := mem_encryptedKeys.mpr ⟨text, stored⟩
    rw [applyAppSpec, get_recordSecretSeals safely.1 safely.1, if_pos rfl, active,
      Option.bind_some, if_pos encrypted] at found
    rw [← Option.some.inj found, ofScope]
  · rw [if_neg same] at stored
    refine (readable.slots other envKey text stored).congr rfl fun recorded found => ?_
    have otherFree := readable.slashFree other (mem_of_slot stored)
    rwa [applyAppSpec, get_recordSecretSeals safely.1 otherFree, if_neg same]
      at found

theorem readable_remove (readable : Readable sealedUnder state) (appId : AppId)
    : Readable sealedUnder (state.withoutApp appId) := by
  refine ⟨readable.ordered, fun other present => readable.slashFree other (mem_erase.mp present).2,
    fun other envKey text stored => ?_⟩
  rw [withoutApp, slot_erase] at stored
  split at stored
  · cases stored
  refine (readable.slots other envKey text stored).congr rfl fun recorded left => ?_
  rw [withoutApp, withoutSeals, get_filter, Option.filter_eq_some_iff]
    at left
  exact left.1

theorem slot_release {spec : AppSpec} (found : state.apps[appId]? = some spec) (other : AppId)
    (envKey : String)
    : slot (state.apps.insert appId spec.withoutOwner) other envKey
      = slot state.apps other envKey := by
  rw [slot_insert]
  split
  · rename_i same
    rw [same, slot, found]
    rfl
  · rfl

theorem readable_edit {writes : List (AppId × AppSpec)} {removes : List AppId}
    (safely : ∀ write ∈ writes, WrittenSafely sealedUnder state.security write.1 write.2)
    (edit : Edit writes removes state next) (readable : Readable sealedUnder state)
    : Readable sealedUnder next ∧ next.security.ageKeypairs = state.security.ageKeypairs := by
  cases edit with
  | elsewhere same =>
    have apps := same .apps (by simp)
    have seals := same .seals (by simp)
    have keys := same .ageKeypairs (by simp)
    simp only [Area.Agrees] at apps seals keys
    refine ⟨⟨by rw [keys]; exact readable.ordered, by rw [apps]; exact readable.slashFree,
      fun appId envKey text stored => ?_⟩, keys⟩
    rw [apps] at stored
    exact (readable.slots appId envKey text stored).congr keys (by rw [seals]; simp)
  | apply appId spec listed => exact ⟨readable_apply readable (safely _ listed), rfl⟩
  | remove appId listed => exact ⟨readable_remove readable appId, rfl⟩
  | release appId spec found =>
    refine ⟨⟨readable.ordered, fun other present => ?_, fun other envKey text stored => ?_⟩, rfl⟩
    · rw [mem_insert] at present
      rcases present with rfl | present
      · exact readable.slashFree _ (mem_iff.mpr ⟨spec, found⟩)
      · exact readable.slashFree other present
    · rw [slot_release found] at stored
      exact readable.slots other envKey text stored
  | _ => exact ⟨⟨readable.ordered, readable.slashFree, readable.slots⟩, rfl⟩

/-- Whether a spec is written safely depends on the keys only. -/
theorem WrittenSafely.congr {spec : AppSpec}
    (safely : WrittenSafely sealedUnder security appId spec)
    (keys : after.ageKeypairs = security.ageKeypairs)
    : WrittenSafely sealedUnder after appId spec := by
  have scope : after.effectiveSecretScope appId.ns = security.effectiveSecretScope appId.ns := by
    simp only [effectiveSecretScope, keys]
  have active (scope : AgeKeyScope)
      : after.activeAgeKeypair scope = security.activeAgeKeypair scope := by
    simp only [activeAgeKeypair, keys]
  refine ⟨safely.1, fun envKey text stored => ?_⟩
  obtain ⟨keypair, ⟨listed, kept⟩, opens⟩ := safely.2 envKey text stored
  rw [mem_decryptionKeypairs] at listed
  refine ⟨keypair, ⟨mem_decryptionKeypairs.mpr ?_, ?_⟩, opens⟩
  · rw [keys, scope]
    exact listed
  · rw [scope, active]
    exact kept

theorem readable_edits {writes : List (AppId × AppSpec)} {removes : List AppId}
    (edits : Edits writes removes state next)
    (safely : ∀ write ∈ writes, WrittenSafely sealedUnder state.security write.1 write.2)
    (readable : Readable sealedUnder state)
    : Readable sealedUnder next := by
  refine (edits.invariant (fun middle => Readable sealedUnder middle
    ∧ middle.security.ageKeypairs = state.security.ageKeypairs) ?_ ⟨readable, rfl⟩).1
  rintro _ _ edit ⟨readable, keys⟩
  obtain ⟨readable, kept⟩ := readable_edit
    (fun write listed => (safely write listed).congr keys) edit readable
  exact ⟨readable, kept.trans keys⟩

-- Rotations

theorem KeysOrdered.filter {keypairs : List AgeKeypair} (ordered : KeysOrdered keypairs)
    (keep : AgeKeypair → Bool)
    : KeysOrdered (keypairs.filter keep) :=
  fun old inOld active inActive => ordered old (List.mem_of_mem_filter inOld) active
    (List.mem_of_mem_filter inActive)

variable {scope : AgeKeyScope}

theorem le_newestGeneration {keypairs : List AgeKeypair}
    {keypair : AgeKeypair} (listed : keypair ∈ keypairs) (own : keypair.scope = scope)
    : keypair.generation ≤ newestGeneration keypairs scope := by
  refine List.le_max?_getD_of_mem (List.mem_map.mpr ⟨keypair, ?_, rfl⟩)
  exact List.mem_filter.mpr ⟨listed, by simp [own]⟩

theorem mem_staleSealedSecrets {newest : Nat}
    (stored : slot state.apps appId envKey = some (.encrypted text))
    (stale : isStaleSeal state.security scope newest appId envKey = true)
    : sealKey appId envKey ∈ state.staleSealedSecrets scope newest := by
  obtain ⟨spec, found, value⟩ := Option.bind_eq_some_iff.mp stored
  rw [staleSealedSecrets, List.mem_insertionSort, List.mem_flatMap]
  refine ⟨(appId, spec), mem_toList.mpr found, List.mem_map.mpr ⟨envKey, ?_, rfl⟩⟩
  exact List.mem_filter.mpr ⟨mem_encryptedKeys.mpr ⟨text, value⟩, stale⟩

/-- The scope of a namespace depends on whether it has a key. -/
theorem effectiveSecretScope_congr {ns : String}
    (same : (∃ keypair ∈ after.ageKeypairs, keypair.scope = .namespaced ns)
        ↔ ∃ keypair ∈ security.ageKeypairs, keypair.scope = .namespaced ns)
    : after.effectiveSecretScope ns = security.effectiveSecretScope ns := by
  have any : after.ageKeypairs.any (fun keypair => keypair.scope == .namespaced ns)
      = security.ageKeypairs.any (fun keypair => keypair.scope == .namespaced ns) := by
    rw [Bool.eq_iff_iff]
    simpa using same
  simp only [effectiveSecretScope, any]

/-- A key is not retired if it is the one recorded for a value, since a finalised scope has no
value of an older generation left. -/
theorem survives_of_recorded {keypair : AgeKeypair}
    (ordered : KeysOrdered state.security.ageKeypairs)
    (active : ∃ active ∈ keysOf scope state.security.ageKeypairs, active.readOnly = false)
    (fresh : state.staleSealedSecrets scope
        (newestGeneration state.security.ageKeypairs scope) = [])
    (stored : slot state.apps appId envKey = some (.encrypted text))
    (listed : keypair ∈ state.security.ageKeypairs)
    (ofScope : keypair.scope = state.security.effectiveSecretScope appId.ns)
    (recorded : ∀ recorded, state.security.secretSeals[sealKey appId envKey]? = some recorded
        → recorded = ⟨keypair.scope, keypair.generation⟩)
    : survivesFinalize scope keypair = true := by
  by_contra retired
  simp only [survivesFinalize, Bool.or_eq_true, bne_iff_ne, Bool.not_eq_true', not_or, not_not,
    Bool.not_eq_false] at retired
  obtain ⟨⟨rfl, reads⟩, _⟩ := retired
  obtain ⟨active, inScope, writes⟩ := active
  rw [mem_keysOf] at inScope
  have older : keypair.generation < newestGeneration state.security.ageKeypairs keypair.scope :=
    (ordered keypair listed active inScope.1 inScope.2.symm reads writes).trans_le
      (le_newestGeneration inScope.1 inScope.2)
  have stale : isStaleSeal state.security keypair.scope
      (newestGeneration state.security.ageKeypairs keypair.scope) appId envKey = true := by
    unfold isStaleSeal
    split
    · rename_i found
      rw [recorded _ found]
      simp [older]
    · simp [ofScope]
  have found := mem_staleSealedSecrets stored stale
  rw [fresh] at found
  cases found

theorem effectiveSecretScope_finalized
    (active : ∃ active ∈ keysOf scope security.ageKeypairs, active.readOnly = false) (ns : String)
    : ({ security with ageKeypairs := security.ageKeypairs.filter (survivesFinalize scope) }
        : SecurityState).effectiveSecretScope ns = security.effectiveSecretScope ns := by
  refine effectiveSecretScope_congr ⟨?_, ?_⟩
  · rintro ⟨keypair, listed, own⟩
    exact ⟨keypair, List.mem_of_mem_filter listed, own⟩
  rintro ⟨keypair, listed, own⟩
  by_cases finished : AgeKeyScope.namespaced ns = scope
  · obtain ⟨active, inScope, writes⟩ := active
    rw [mem_keysOf] at inScope
    exact ⟨active, List.mem_filter.mpr ⟨inScope.1, by simp [survivesFinalize, writes]⟩,
      inScope.2.trans finished.symm⟩
  · exact ⟨keypair, List.mem_filter.mpr ⟨listed, by simp [survivesFinalize, own, finished]⟩, own⟩

theorem readable_finalize {answer : CouncilResponse}
    (finalised : state.finalizeSecretRotation scope = .ok (answer, next))
    (readable : Readable sealedUnder state)
    : Readable sealedUnder next := by
  obtain ⟨_, active, fresh, rfl⟩ := finalizeSecretRotation_eq_ok.mp finalised
  refine ⟨readable.ordered.filter _, readable.slashFree, fun appId envKey text stored => ?_⟩
  obtain ⟨keypair, listed, ofScope, opens, kept⟩ := readable.slots appId envKey text stored
  have survives : survivesFinalize scope keypair = true := by
    rcases kept with backup | recorded
    · simp [survivesFinalize, backup]
    · exact survives_of_recorded readable.ordered active fresh stored listed ofScope recorded
  refine ⟨keypair, List.mem_filter.mpr ⟨listed, survives⟩, ?_, opens, kept⟩
  rw [ofScope]
  exact (effectiveSecretScope_finalized active appId.ns).symm

section

variable {scope : AgeKeyScope} {keypair : AgeKeypair} {resealed : List ResealedSecret}

variable {keypairs : List AgeKeypair} {appId : AppId} {security : SecurityState}

theorem mem_addKeypair {new : AgeKeypair}
    : new ∈ addKeypair keypairs scope keypair
      ↔ new = keypair
        ∨ ∃ old ∈ keypairs,
            new = if old.scope = scope then { old with readOnly := true } else old := by
  simp only [addKeypair, List.mem_append, List.mem_map, List.mem_singleton]
  rw [or_comm]
  simp only [eq_comm]

/-- No key of a scope or generation is lost to a rotation. -/
theorem exists_addKeypair {old : AgeKeypair} (listed : old ∈ keypairs)
    : ∃ new ∈ addKeypair keypairs scope keypair,
        new.scope = old.scope ∧ new.generation = old.generation := by
  refine ⟨_, mem_addKeypair.mpr (.inr ⟨old, listed, rfl⟩), ?_⟩
  split <;> exact ⟨rfl, rfl⟩

theorem ordered_addKeypair (ordered : KeysOrdered keypairs) (own : keypair.scope = scope)
    (writes : keypair.readOnly = false)
    (above : ∀ old ∈ keysOf scope keypairs, old.generation < keypair.generation)
    : KeysOrdered (addKeypair keypairs scope keypair) := by
  intro old inOld active inActive sameScope reads activeWrites
  rw [mem_addKeypair] at inOld inActive
  rcases inOld with rfl | ⟨old, inOld, rfl⟩
  · rw [writes] at reads
    cases reads
  rcases inActive with rfl | ⟨active, inActive, rfl⟩
  · have ofScope : old.scope = scope := by
      rw [← own, ← sameScope]
      split <;> rfl
    rw [if_pos ofScope]
    exact above old (mem_keysOf.mpr ⟨inOld, ofScope⟩)
  · -- A key of the rotated scope does not encrypt any more.
    split at activeWrites
    · cases activeWrites
    rename_i other
    rw [if_neg other] at sameScope ⊢
    have apart : old.scope ≠ scope := by
      intro ofScope
      rw [if_pos ofScope] at sameScope
      exact other (sameScope.symm.trans ofScope)
    rw [if_neg apart] at sameScope reads ⊢
    exact ordered old inOld active inActive sameScope reads activeWrites

/-- A new key leaves a value readable whose namespace's scope and seal stay. -/
theorem SlotReadable.addKey {after : SecurityState} {envKey text : String}
    (readable : SlotReadable sealedUnder security appId envKey text)
    (keys : after.ageKeypairs = addKeypair security.ageKeypairs scope keypair)
    (effective : keypair.scope = .namespaced appId.ns
        → ∃ old ∈ security.ageKeypairs, old.scope = .namespaced appId.ns)
    (seals : after.secretSeals[sealKey appId envKey]? = security.secretSeals[sealKey appId envKey]?)
    : SlotReadable sealedUnder after appId envKey text := by
  have sameScope
      : after.effectiveSecretScope appId.ns = security.effectiveSecretScope appId.ns := by
    refine effectiveSecretScope_congr ⟨?_, ?_⟩
    · rintro ⟨new, listed, own⟩
      rw [keys, mem_addKeypair] at listed
      rcases listed with rfl | ⟨old, listed, rfl⟩
      · exact effective own
      · refine ⟨old, listed, ?_⟩
        split at own <;> exact own
    · rintro ⟨_, listed, own⟩
      rw [keys]
      obtain ⟨new, listed, scope, _⟩ := exists_addKeypair listed
      exact ⟨new, listed, scope.trans own⟩
  obtain ⟨_, listed, ofScope, opens, kept⟩ := readable
  obtain ⟨new, inNew, scopeSame, generation⟩ := exists_addKeypair listed
  refine ⟨new, by rw [keys]; exact inNew, by rw [sameScope, scopeSame, ofScope],
    by rw [scopeSame, generation]; exact opens, ?_⟩
  rw [seals, scopeSame, generation]
  refine kept.imp_left fun backup => ?_
  rwa [AgeKeypair.opensRootCaBackup, scopeSame, generation]

-- A namespace's first key

/-- Recording the seals of other apps leaves an app's alone. -/
theorem recordSecretSeals_fold_other {entries : List (AppId × AppSpec)}
    (slashFree : appId.SlashFree) (free : ∀ entry ∈ entries, entry.1.SlashFree)
    (apart : ∀ entry ∈ entries, entry.1 ≠ appId) (envKey : String)
    : (entries.foldl (fun security entry => security.recordSecretSeals entry.1 entry.2)
        security).secretSeals[sealKey appId envKey]?
      = security.secretSeals[sealKey appId envKey]? := by
  induction entries generalizing security with
  | nil => rfl
  | cons entry rest ih =>
    rw [List.forall_mem_cons] at free apart
    rw [List.foldl_cons, ih free.2 apart.2,
      get_recordSecretSeals free.1 slashFree, if_neg apart.1.symm]

/-- Where an app is among those whose seals are recorded, its seals are of the active key. -/
theorem recordSecretSeals_fold_own {entries : List (AppId × AppSpec)} {active : AgeKeypair}
    (slashFree : appId.SlashFree) (free : ∀ entry ∈ entries, entry.1.SlashFree)
    (listed : ∃ entry ∈ entries, entry.1 = appId)
    (current : security.activeAgeKeypair (security.effectiveSecretScope appId.ns) = some active)
    {envKey : String} {recorded : SecretSeal}
    (found : (entries.foldl (fun security entry => security.recordSecretSeals entry.1 entry.2)
        security).secretSeals[sealKey appId envKey]? = some recorded)
    : recorded = ⟨security.effectiveSecretScope appId.ns, active.generation⟩ := by
  induction entries generalizing security with
  | nil => simp at listed
  | cons entry rest ih =>
    rw [List.forall_mem_cons] at free
    rw [List.foldl_cons] at found
    by_cases later : ∃ entry ∈ rest, entry.1 = appId
    · show recorded = ⟨(security.recordSecretSeals entry.1 entry.2).effectiveSecretScope appId.ns,
        active.generation⟩
      exact ih free.2 later current found
    push Not at later
    rw [recordSecretSeals_fold_other slashFree free.2 later] at found
    obtain ⟨other, inList, rfl⟩ := listed
    rcases List.mem_cons.mp inList with rfl | inRest
    · rw [get_recordSecretSeals slashFree slashFree, if_pos rfl, current,
        Option.bind_some] at found
      split at found
      · exact (Option.some.inj found).symm
      · cases found
    · exact absurd rfl (later other inRest)

theorem readable_started
    (readable : Readable sealedUnder state) (own : keypair.scope = scope)
    (writes : keypair.readOnly = false)
    (above : ∀ old ∈ keysOf scope state.security.ageKeypairs,
        old.generation < keypair.generation)
    (repeated : ∀ ns, scope = .namespaced ns → keysOf scope state.security.ageKeypairs ≠ [])
    : Readable sealedUnder (state.started scope keypair resealed) := by
  have rotates : state.started scope keypair resealed = state.rotated scope keypair := by
    unfold started
    split
    · rfl
    rename_i ns
    rw [if_neg]
    simpa using repeated ns rfl
  rw [rotates]
  refine ⟨ordered_addKeypair readable.ordered own writes above, readable.slashFree,
    fun appId envKey text stored => ?_⟩
  refine (readable.slots appId envKey text stored).addKey rfl (fun ofNamespace => ?_) rfl
  obtain ⟨old, listed⟩ :=
    List.exists_mem_of_ne_nil _ (repeated appId.ns (own.symm.trans ofNamespace))
  rw [mem_keysOf] at listed
  exact ⟨old, listed.1, listed.2.trans (own.symm.trans ofNamespace)⟩

theorem readable_adopted {ns : String} (readable : Readable sealedUnder state)
    (own : keypair.scope = .namespaced ns) (writes : keypair.readOnly = false)
    (first : keysOf (.namespaced ns) state.security.ageKeypairs = [])
    (ofNamespace : ∀ item ∈ resealed, item.appId.ns = ns)
    (reencrypted : ∀ item ∈ resealed,
        sealedUnder item.sealed = (keypair.scope, keypair.generation))
    (every : ∀ appId envKey text, appId.ns = ns
        → slot state.apps appId envKey = some (.encrypted text)
        → ∃ item ∈ resealed, item.appId = appId ∧ item.envKey = envKey)
    : Readable sealedUnder (state.started (.namespaced ns) keypair resealed) := by
  have apps := @apps_started_first state ns keypair resealed first
  have keys : (state.started (.namespaced ns) keypair resealed).security.ageKeypairs
      = addKeypair state.security.ageKeypairs (.namespaced ns) keypair := ageKeypairs_started
  have newest : keysOf (.namespaced ns)
      (addKeypair state.security.ageKeypairs (.namespaced ns) keypair) = [keypair] := by
    rw [keysOf_addKeypair own, first, List.map_nil, List.nil_append]
  have present : keypair ∈ addKeypair state.security.ageKeypairs (.namespaced ns) keypair :=
    mem_addKeypair.mpr (.inl rfl)
  -- The seals are recorded for every app of the namespace, over the new keys.
  let inNamespace := (resealed.foldl resealValue state.apps).toList.filter
    (fun entry => entry.1.ns == ns)
  have seals : (state.started (.namespaced ns) keypair resealed).security
      = inNamespace.foldl (fun security entry => security.recordSecretSeals entry.1 entry.2)
          (state.rotated (.namespaced ns) keypair).security := by
    simp [started, first, adoptNamespaceKey, rotated, withSecurity, inNamespace]
  have free : ∀ entry ∈ inNamespace, entry.1.SlashFree := by
    intro entry listed
    have found := mem_toList.mp (List.mem_of_mem_filter listed)
    exact readable.slashFree _ (mem_resealed.mp (mem_iff.mpr ⟨_, found⟩))
  refine ⟨?_, fun appId stored => ?_, fun appId envKey text stored => ?_⟩
  · rw [keys]
    exact ordered_addKeypair readable.ordered own writes (by simp [first])
  · rw [apps, mem_resealed] at stored
    exact readable.slashFree appId stored
  · rw [apps] at stored
    have listed : appId ∈ state.apps := mem_resealed.mp (mem_of_slot stored)
    have slashFree := readable.slashFree appId listed
    by_cases inside : appId.ns = ns
    · have opens : sealedUnder text = (keypair.scope, keypair.generation) := by
        rcases slot_resealed envKey listed with ⟨item, inList, _, _, after⟩ | ⟨absent, same⟩
        · rw [after] at stored
          obtain rfl := EnvValue.encrypted.inj (Option.some.inj stored)
          exact reencrypted item inList
        · rw [same] at stored
          obtain ⟨item, inList, named⟩ := every appId envKey text inside stored
          exact absurd named (absent item inList)
      have scope : (state.rotated (.namespaced ns) keypair).security.effectiveSecretScope appId.ns
          = .namespaced ns := by
        rw [inside]
        exact effectiveSecretScope_of_key present own
      have active : (state.rotated (.namespaced ns) keypair).security.activeAgeKeypair
          (.namespaced ns) = some keypair := by
        refine activeAgeKeypair_of_writable ?_
        rw [rotated, withSecurity, newest]
        simp [writes]
      have recordedFor : ∃ entry ∈ inNamespace, entry.1 = appId := by
        obtain ⟨spec, found⟩ := mem_iff.mp (mem_of_slot stored)
        exact ⟨(appId, spec), List.mem_filter.mpr ⟨mem_toList.mpr found, by simp [inside]⟩, rfl⟩
      refine ⟨keypair, by rw [keys]; exact present, ?_, opens.symm, .inr fun recorded found => ?_⟩
      · rw [own, inside]
        exact (effectiveSecretScope_of_key (by rw [keys]; exact present) own).symm
      · rw [seals] at found
        rw [recordSecretSeals_fold_own slashFree free recordedFor (by rw [scope]; exact active)
          found, scope, own]
    · have same : slot (resealed.foldl resealValue state.apps) appId envKey
          = slot state.apps appId envKey := by
        rcases slot_resealed envKey listed with ⟨item, inList, named, _⟩ | ⟨_, same⟩
        · exact absurd (named ▸ ofNamespace item inList) inside
        · exact same
      rw [same] at stored
      refine (readable.slots appId envKey text stored).addKey keys (fun ofNamespace => ?_) ?_
      · rw [own] at ofNamespace
        exact absurd (AgeKeyScope.namespaced.inj ofNamespace).symm inside
      rw [seals, recordSecretSeals_fold_other slashFree free]
      · rfl
      · rintro _ inList rfl
        exact inside (by simpa using (List.mem_filter.mp inList).2)

/-- Only values of the namespace itself are re-sealed with its key. -/
theorem namespace_of_carried {ns : String} {firstKey : Bool}
    (carried : state.checkCarried (.namespaced ns) firstKey resealed = .ok ())
    : ∀ item ∈ resealed, item.appId.ns = ns := by
  unfold checkCarried at carried
  split at carried
  · rename_i empty
    rw [List.isEmpty_iff.mp empty]
    simp
  · obtain ⟨_, _, all⟩ := bind_eq_ok.mp carried
    intro item listed
    obtain ⟨_, inside, _⟩ := bind_eq_ok.mp (checkAll_eq_ok.mp all item listed)
    rwa [refuseIf_eq_ok, not_not] at inside

theorem readable_rotate {answer : CouncilResponse}
    (rotated : state.rotateSecretKey scope keypair resealed = .ok (answer, next))
    (safely : RotatesSafely sealedUnder state scope keypair resealed)
    (readable : Readable sealedUnder state)
    : Readable sealedUnder next := by
  rcases (rotateSecretKey_eq_ok.mp rotated).2 with ⟨_, rfl⟩ | ⟨starts, carried, rfl⟩
  · exact readable
  rcases safely with ⟨old, listed, same⟩ | ⟨own, writes, above, reencrypted, every⟩
  · exact absurd same (starts.unused old listed)
  by_cases first : ∃ ns, scope = .namespaced ns ∧ keysOf scope state.security.ageKeypairs = []
  · obtain ⟨ns, rfl, none⟩ := first
    exact readable_adopted readable own writes none (namespace_of_carried carried) reencrypted
      (every ns rfl none)
  · push Not at first
    exact readable_started readable own writes above first

end

-- Runs

theorem readable_step (keeps : KeepsReadable sealedUnder state entry)
    (readable : Readable sealedUnder state)
    : Readable sealedUnder (state.step S entry) := by
  have reached : Readable sealedUnder { state with lastApplied := some entry.logId } :=
    ⟨readable.ordered, readable.slashFree, readable.slots⟩
  rcases step_cases S state entry with
    ⟨request, _, _, payload, handled, _, after⟩ | ⟨_, _, after⟩
  · rw [after]
    by_cases keysKept : Area.ageKeypairs ∉ request.touches
    · have safely : ∀ write ∈ request.writtenApps state,
          WrittenSafely sealedUnder state.security write.1 write.2 := by
        cases request <;> first
          | (simp only [KeepsReadable, payload] at keeps; exact keeps)
          | simp [touches] at keysKept
      exact readable_edits (handle_edits keysKept handled) safely reached
    · cases request with
      | securityStateInit seed =>
        simp only [KeepsReadable, payload] at keeps
        obtain ⟨none, _, rfl⟩ := securityStateInit_ok handled
        refine ⟨keeps, readable.slashFree, fun appId envKey text stored => ?_⟩
        obtain ⟨keypair, listed, _⟩ := reached.slots appId envKey text stored
        rw [none] at listed
        cases listed
      | rotateSecretKey scope keypair resealed =>
        simp only [KeepsReadable, payload] at keeps
        exact readable_rotate handled keeps reached
      | finalizeSecretRotation scope => exact readable_finalize handled reached
      | _ => simp [touches, specAreas] at keysKept
  · rw [after]
    exact ⟨readable.ordered, readable.slashFree, readable.slots⟩

/-- Along a run from the empty state in which values are written as sealed under the active key, or
under the key of the root CA's backup, every stored encrypted value is readable in every state; so
it is after every finalised rotation. -/
theorem secrets_stay_readable (sealedUnder : String → AgeKeyScope × Nat) (S : Surroundings)
    (entries : List CouncilEntry)
    (keeps : Runs.Meets (step S) (KeepsReadable sealedUnder) {} entries) (appId : AppId)
    (envKey text : String)
    (stored : slot (run S {} entries).apps appId envKey = some (.encrypted text))
    : Opens sealedUnder (run S {} entries).security appId.ns text := by
  have start : Readable sealedUnder {} := by
    refine ⟨by simp [KeysOrdered], by simp, by simp [slot]⟩
  have readable := keeps.invariant (Readable sealedUnder)
    (fun state entry readable keeps => readable_step keeps readable) start
  obtain ⟨keypair, listed, ofScope, opens, _⟩ := readable.slots appId envKey text stored
  exact ⟨keypair, mem_decryptionKeypairs.mpr ⟨listed, ofScope⟩, opens⟩

/-- Every encrypted value that an app spec writes is readable as it is written. -/
def WritesReadable (sealedUnder : String → AgeKeyScope × Nat) (state : DesiredState)
    (entry : CouncilEntry)
    : Prop :=
  match entry.payload with
  | .request request =>
    ∀ write ∈ request.writtenApps state, ∀ envKey text : String,
      write.2.env[envKey]? = some (.encrypted text)
      → Opens sealedUnder state.security write.1.ns text
  | _ => True

theorem secretApp_env {written envKey text : String}
    (stored : (secretApp written).env[envKey]? = some (.encrypted text))
    : text = written := by
  rcases get_insert_cases stored with ⟨_, same⟩ | stored
  · exact (EnvValue.encrypted.inj same).symm
  · simp at stored

/-- What sealed a value of the sample namespace: its first key, or its second. -/
def teamGeneration (text : String) : AgeKeyScope × Nat :=
  (.namespaced "team", if text = "ENC[AGE:old]" then 0 else 1)

/-- A namespace's key is rotated while an app's value stays, or is replaced. -/
def rotatedUnderApp (text : String) : List CouncilEntry :=
  requestEntries 1
    [.securityStateInit { ageKeypairs := [sampleKey (.namespaced "team") 0] },
      .spec (.appSpec teamApp (secretApp "ENC[AGE:old]")),
      .rotateSecretKey (.namespaced "team") (sampleKey (.namespaced "team") 1) [],
      .spec (.appSpec teamApp (secretApp text))]

def finaliseTeam : CouncilEntry :=
  ⟨⟨1, 5⟩, .request (.finalizeSecretRotation (.namespaced "team"))⟩

/-- The same spec applied again during a rotation counts as re-encrypted, and finalising retires the
key that its value needs. -/
theorem reapplied_value_becomes_unreadable
    : ¬ ∀ (sealedUnder : String → AgeKeyScope × Nat) (S : Surroundings)
        (entries : List CouncilEntry) (finalise : CouncilEntry) (scope : AgeKeyScope),
        Runs.Meets (step S) (WritesReadable sealedUnder) {} (entries ++ [finalise])
        → finalise.payload = .request (.finalizeSecretRotation scope)
        → ((run S {} entries).applyEntry S finalise).1 = .applied
        → ∀ appId envKey text,
            slot (run S {} (entries ++ [finalise])).apps appId envKey = some (.encrypted text)
            → Opens sealedUnder (run S {} (entries ++ [finalise])).security appId.ns text := by
  intro claimed
  have readable := claimed teamGeneration plainSurroundings (rotatedUnderApp "ENC[AGE:old]")
    finaliseTeam (.namespaced "team") ?_ rfl (by decide +kernel) teamApp "TOKEN" "ENC[AGE:old]"
    (by decide +kernel)
  · revert readable
    unfold Opens
    decide +kernel
  · refine ⟨by simp [WritesReadable, writtenApps], ?_, by simp [WritesReadable, writtenApps], ?_, by
      simp [WritesReadable, writtenApps, finaliseTeam], trivial⟩
    all_goals
      intro write listed envKey text stored
      obtain rfl := List.mem_singleton.mp listed
      rw [secretApp_env stored]
      unfold Opens
      decide +kernel

/-- The value is encrypted again under the new key before the rotation is finalised. -/
theorem reencrypted_value_stays_readable
    : Opens teamGeneration
        (run plainSurroundings {} (rotatedUnderApp "ENC[AGE:new]" ++ [finaliseTeam])).security
        teamApp.ns "ENC[AGE:new]" := by
  refine secrets_stay_readable teamGeneration plainSurroundings
    (rotatedUnderApp "ENC[AGE:new]" ++ [finaliseTeam]) ?_ teamApp "TOKEN" "ENC[AGE:new]"
    (by decide +kernel)
  refine ⟨?_, fun write listed => ?_, .inr ⟨rfl, rfl, by decide +kernel, by simp, ?_⟩, fun write
    listed => ?_, by simp [KeepsReadable, writtenApps, finaliseTeam], trivial⟩
  · show KeysOrdered _
    unfold KeysOrdered
    decide
  · obtain rfl := List.mem_singleton.mp listed
    refine ⟨by decide, fun envKey text stored => ?_⟩
    rw [secretApp_env stored]
    exact ⟨sampleKey (.namespaced "team") 0, ⟨by decide +kernel, .inr (by decide +kernel)⟩,
      by decide⟩
  · intro ns _ empty
    exact absurd empty (by decide +kernel)
  · obtain rfl := List.mem_singleton.mp listed
    refine ⟨by decide, fun envKey text stored => ?_⟩
    rw [secretApp_env stored]
    exact ⟨sampleKey (.namespaced "team") 1, ⟨by decide +kernel, .inr (by decide +kernel)⟩,
      by decide⟩

end DesiredState

end Reliaburger
