import Reliaburger.Council.SecretKeys

/-! Stored secrets and the keys that open them. Every encrypted value is sealed under one
generation of one scope's key; that of a ciphertext is given by `sealedUnder`.
-/

namespace Reliaburger

open BTreeMap Checks SecurityState

-- Names

/-- Neither part of an app's id holds a slash, as validated configurations have them. -/
def AppId.SlashFree (appId : AppId) : Prop :=
  '/' ∉ appId.ns.toList ∧ '/' ∉ appId.name.toList

instance (appId : AppId) : Decidable appId.SlashFree := inferInstanceAs (Decidable (_ ∧ _))

/-- What stands before the first slash, and after it. -/
theorem append_slash_inj {first second : List Char} (free : '/' ∉ first) (free' : '/' ∉ second)
    {rest rest' : List Char}
    : first ++ '/' :: rest = second ++ '/' :: rest' ↔ first = second ∧ rest = rest' := by
  induction first generalizing second with
  | nil =>
    cases second with
    | nil => simp
    | cons char later =>
      have apart : char ≠ '/' := fun same => free' (by simp [same])
      simp [apart.symm]
  | cons char later ih =>
    cases second with
    | nil =>
      have apart : char ≠ '/' := fun same => free (by simp [same])
      simp [apart]
    | cons char' later' =>
      have tails := @ih later' (fun listed => free (List.mem_cons_of_mem _ listed))
        (fun listed => free' (List.mem_cons_of_mem _ listed))
      simp [tails, and_assoc]

theorem toList_text (appId : AppId)
    : appId.text.toList = appId.ns.toList ++ '/' :: appId.name.toList := by
  simp [AppId.text]

theorem toList_sealKey (appId : AppId) (envKey : String)
    : (sealKey appId envKey).toList
      = appId.ns.toList ++ '/' :: (appId.name.toList ++ '/' :: envKey.toList) := by
  simp [sealKey, toList_text]

theorem sealKey_inj {appId other : AppId} (slashFree : appId.SlashFree)
    (otherFree : other.SlashFree) {envKey otherKey : String}
    : sealKey appId envKey = sealKey other otherKey ↔ appId = other ∧ envKey = otherKey := by
  constructor
  · intro same
    have lists := congrArg String.toList same
    rw [toList_sealKey, toList_sealKey, append_slash_inj slashFree.1 otherFree.1, append_slash_inj
      slashFree.2 otherFree.2, String.toList_inj, String.toList_inj, String.toList_inj] at lists
    exact ⟨AppId.ext lists.2.1 lists.1, lists.2.2⟩
  · rintro ⟨rfl, rfl⟩
    rfl

/-- The seals of an app are those that start with its text. -/
theorem startsWith_sealKey {appId other : AppId} (slashFree : appId.SlashFree)
    (otherFree : other.SlashFree) (envKey : String)
    : startsWith (sealKey other envKey) (appId.text ++ "/") = true ↔ other = appId := by
  have text : (appId.text ++ "/").toList
      = appId.ns.toList ++ '/' :: (appId.name.toList ++ '/' :: []) := by
    simp [toList_text]
  rw [startsWith, List.isPrefixOf_iff_prefix, text, toList_sealKey]
  constructor
  · rintro ⟨_, same⟩
    simp only [List.append_assoc, List.cons_append, List.nil_append] at same
    rw [append_slash_inj slashFree.1 otherFree.1, append_slash_inj slashFree.2 otherFree.2,
      String.toList_inj, String.toList_inj] at same
    exact AppId.ext same.2.1.symm same.1.symm
  · rintro rfl
    exact ⟨envKey.toList, by simp⟩

@[simp] theorem startsWith_sealKey_self (appId : AppId) (envKey : String)
    : startsWith (sealKey appId envKey) (appId.text ++ "/") = true := by
  rw [startsWith, List.isPrefixOf_iff_prefix]
  exact ⟨envKey.toList, by simp [sealKey]⟩

@[simp] theorem mem_encryptedKeys {spec : AppSpec} {envKey : String}
    : envKey ∈ spec.encryptedKeys ↔ ∃ text, spec.env[envKey]? = some (.encrypted text) := by
  have encrypted (value : EnvValue)
      : value.isEncrypted = true ↔ ∃ text, value = .encrypted text := by
    cases value <;> simp [EnvValue.isEncrypted]
  simp only [AppSpec.encryptedKeys, List.mem_map, List.mem_filter, encrypted, Prod.exists,
    mem_toList]
  constructor
  · rintro ⟨_, _, ⟨found, text, rfl⟩, rfl⟩
    exact ⟨text, found⟩
  · rintro ⟨text, found⟩
    exact ⟨envKey, _, ⟨found, text, rfl⟩, rfl⟩

-- Recording and forgetting

namespace SecurityState

variable {security : SecurityState} {appId other : AppId} {spec : AppSpec} {envKey : String}

theorem get_withoutSeals (slashFree : appId.SlashFree) (otherFree : other.SlashFree)
    : (security.withoutSeals appId)[sealKey other envKey]?
      = if other = appId then none else security.secretSeals[sealKey other envKey]? := by
  have own := startsWith_sealKey slashFree otherFree envKey
  rw [withoutSeals, get_filter]
  split
  · next same => simp [own.mpr same]
  rename_i apart
  have kept : startsWith (sealKey other envKey) (appId.text ++ "/") = false :=
    Bool.eq_false_iff.mpr (mt own.mp apart)
  cases security.secretSeals[sealKey other envKey]? <;> simp [kept]

/-- After an app's seals were recorded: its encrypted values are sealed under the active key of the
scope, and no other app's seals changed. -/
theorem get_recordSecretSeals (slashFree : appId.SlashFree) (otherFree : other.SlashFree)
    : (security.recordSecretSeals appId spec).secretSeals[sealKey other envKey]?
      = if other = appId then
          (security.activeAgeKeypair (security.effectiveSecretScope appId.ns)).bind (fun keypair =>
            if envKey ∈ spec.encryptedKeys then
              some ⟨security.effectiveSecretScope appId.ns, keypair.generation⟩
            else none)
        else security.secretSeals[sealKey other envKey]? := by
  unfold recordSecretSeals
  dsimp only
  cases security.activeAgeKeypair (security.effectiveSecretScope appId.ns) with
  | none =>
    rw [get_withoutSeals slashFree otherFree]
    rfl
  | some keypair =>
    dsimp only [Option.bind_some]
    by_cases named : other = appId ∧ envKey ∈ spec.encryptedKeys
    · obtain ⟨rfl, listed⟩ := named
      have present : ∃ key ∈ spec.encryptedKeys, sealKey other key = sealKey other envKey :=
        ⟨envKey, listed, rfl⟩
      obtain ⟨_, _, _, found⟩ := get_foldl_insert_of_mem present
        (security.withoutSeals other)
      rw [if_pos rfl, if_pos listed]
      exact found
    · have absent : ∀ key ∈ spec.encryptedKeys, sealKey appId key ≠ sealKey other envKey := by
        intro key listed same
        obtain ⟨rfl, rfl⟩ := (sealKey_inj slashFree otherFree).mp same
        exact named ⟨rfl, listed⟩
      rw [get_foldl_insert_of_absent absent, get_withoutSeals slashFree otherFree]
      split
      · next same => rw [if_neg fun listed => named ⟨same, listed⟩]
      · rfl

theorem mem_withoutSeals {key : String}
    : key ∈ security.withoutSeals appId
      ↔ key ∈ security.secretSeals ∧ startsWith key (appId.text ++ "/") = false := by
  rw [withoutSeals, mem_filter_keys, Bool.not_eq_true']

/-- A recorded seal was there before, or names an encrypted value of the app. -/
theorem mem_recordSecretSeals {key : String}
    (recorded : key ∈ (security.recordSecretSeals appId spec).secretSeals)
    : (key ∈ security.secretSeals ∧ startsWith key (appId.text ++ "/") = false)
      ∨ ∃ envKey ∈ spec.encryptedKeys, key = sealKey appId envKey := by
  rw [← mem_withoutSeals]
  unfold recordSecretSeals at recorded
  dsimp only at recorded
  cases active : security.activeAgeKeypair (security.effectiveSecretScope appId.ns) with
  | none =>
    rw [active] at recorded
    exact .inl recorded
  | some keypair =>
    rw [active] at recorded
    by_cases named : ∃ envKey ∈ spec.encryptedKeys, sealKey appId envKey = key
    · obtain ⟨envKey, listed, same⟩ := named
      exact .inr ⟨envKey, listed, same.symm⟩
    push Not at named
    dsimp only at recorded
    rw [mem_iff, get_foldl_insert_of_absent named, ← mem_iff]
      at recorded
    exact .inl recorded

end SecurityState

-- First keys

def slot (apps : BTreeMap AppId AppSpec) (appId : AppId) (envKey : String) : Option EnvValue :=
  apps[appId]?.bind (fun spec => spec.env[envKey]?)

theorem slot_insert (apps : BTreeMap AppId AppSpec) (appId other : AppId) (spec : AppSpec)
    (envKey : String)
    : slot (apps.insert appId spec) other envKey
      = if other = appId then spec.env[envKey]? else slot apps other envKey := by
  rw [slot, get_insert]
  by_cases same : appId = other
  · simp [same]
  · simp [same, Ne.symm same, slot]

theorem slot_erase (apps : BTreeMap AppId AppSpec) (appId other : AppId) (envKey : String)
    : slot (apps.erase appId) other envKey
      = if other = appId then none else slot apps other envKey := by
  rw [slot, get_erase]
  by_cases same : appId = other
  · simp [same]
  · simp [same, Ne.symm same, slot]

theorem mem_of_slot {apps : BTreeMap AppId AppSpec} {appId : AppId} {envKey : String}
    {value : EnvValue} (stored : slot apps appId envKey = some value)
    : appId ∈ apps := by
  obtain ⟨spec, found, _⟩ := Option.bind_eq_some_iff.mp stored
  exact mem_iff.mpr ⟨spec, found⟩

/-- Some key of the namespace opens the encrypted value. -/
def Opens (sealedUnder : String → AgeKeyScope × Nat) (security : SecurityState) (ns text : String)
    : Prop :=
  ∃ keypair ∈ security.decryptionKeypairs ns,
    (keypair.scope, keypair.generation) = sealedUnder text

namespace SecurityState

variable {security : SecurityState} {ns : String} {keypair : AgeKeypair}

/-- Values are decrypted with the keys of the scope that seals them. -/
theorem mem_decryptionKeypairs
    : keypair ∈ security.decryptionKeypairs ns
      ↔ keypair ∈ security.ageKeypairs ∧ keypair.scope = security.effectiveSecretScope ns := by
  unfold decryptionKeypairs effectiveSecretScope hasNamespaceKey
  split <;> simp

theorem effectiveSecretScope_of_none
    (none : keysOf (.namespaced ns) security.ageKeypairs = [])
    : security.effectiveSecretScope ns = .clusterWide := by
  unfold effectiveSecretScope
  rw [if_neg]
  simpa [keysOf] using none

theorem effectiveSecretScope_of_key (listed : keypair ∈ security.ageKeypairs)
    (own : keypair.scope = .namespaced ns)
    : security.effectiveSecretScope ns = .namespaced ns := by
  unfold effectiveSecretScope
  rw [if_pos (List.any_eq_true.mpr ⟨keypair, listed, by simp [own]⟩)]

end SecurityState

namespace DesiredState

variable {S : Surroundings} {sealedUnder : String → AgeKeyScope × Nat}
  {state next : DesiredState} {entry : CouncilEntry} {ns : String} {keypair : AgeKeypair}
  {resealed : List ResealedSecret}

-- Re-sealed values

variable {appId : AppId} {apps : BTreeMap AppId AppSpec}

theorem slot_resealValue {item : ResealedSecret} {envKey : String}
    : slot (resealValue apps item) appId envKey
      = if item.appId = appId ∧ item.envKey = envKey ∧ appId ∈ apps then
          some (.encrypted item.sealed)
        else slot apps appId envKey := by
  unfold resealValue
  split
  · rename_i absent
    rw [if_neg]
    rintro ⟨rfl, _, present⟩
    exact not_mem_iff.mpr absent present
  rename_i spec found
  rw [slot_insert]
  by_cases same : item.appId = appId
  · subst same
    have present : item.appId ∈ apps := mem_iff.mpr ⟨spec, found⟩
    by_cases named : item.envKey = envKey
    · subst named
      simp [present]
    · have kept : (spec.env.insert item.envKey (.encrypted item.sealed))[envKey]?
          = spec.env[envKey]? := get_insert_ne _ _ named
      simp [named, kept, slot, found]
  · rw [if_neg (Ne.symm same), if_neg fun all => same all.1]

theorem mem_resealValue {item : ResealedSecret}
    : appId ∈ resealValue apps item ↔ appId ∈ apps := by
  unfold resealValue
  split
  · rfl
  rename_i spec found
  rw [mem_insert]
  refine ⟨?_, .inr⟩
  rintro (rfl | present)
  · exact mem_iff.mpr ⟨spec, found⟩
  · exact present

theorem mem_resealed : appId ∈ resealed.foldl resealValue apps ↔ appId ∈ apps := by
  induction resealed generalizing apps with
  | nil => rfl
  | cons item rest ih => rw [List.foldl_cons, ih, mem_resealValue]

/-- A value of a stored app is what the last item for it re-sealed, or as it was if there is
none. -/
theorem slot_resealed (envKey : String) (present : appId ∈ apps)
    : (∃ item ∈ resealed, item.appId = appId ∧ item.envKey = envKey
        ∧ slot (resealed.foldl resealValue apps) appId envKey = some (.encrypted item.sealed))
      ∨ ((∀ item ∈ resealed, ¬ (item.appId = appId ∧ item.envKey = envKey))
        ∧ slot (resealed.foldl resealValue apps) appId envKey = slot apps appId envKey) := by
  induction resealed generalizing apps with
  | nil => exact .inr ⟨by simp, rfl⟩
  | cons item rest ih =>
    rw [List.foldl_cons]
    rcases ih (mem_resealValue.mpr present) with ⟨later, listed, named⟩ | ⟨none, same⟩
    · exact .inl ⟨later, List.mem_cons_of_mem _ listed, named⟩
    rw [slot_resealValue] at same
    by_cases own : item.appId = appId ∧ item.envKey = envKey
    · rw [if_pos ⟨own.1, own.2, present⟩] at same
      exact .inl ⟨item, List.mem_cons_self, own.1, own.2, same⟩
    · rw [if_neg fun all => own ⟨all.1, all.2.1⟩] at same
      exact .inr ⟨List.forall_mem_cons.mpr ⟨own, none⟩, same⟩

-- A namespace's first key

/-- Every encrypted value of the namespace that its keys open is among the re-sealed ones. -/
def ReadEvery (sealedUnder : String → AgeKeyScope × Nat) (state : DesiredState) (ns : String)
    (resealed : List ResealedSecret)
    : Prop :=
  ∀ appId envKey text,
    appId.ns = ns
    → slot state.apps appId envKey = some (.encrypted text)
    → Opens sealedUnder state.security ns text
    → ∃ item ∈ resealed, item.appId = appId ∧ item.envKey = envKey

theorem apps_started_first (first : keysOf (.namespaced ns) state.security.ageKeypairs = [])
    : (state.started (.namespaced ns) keypair resealed).apps
      = resealed.foldl resealValue state.apps := by
  simp [started, first, adoptNamespaceKey, rotated, withSecurity]

/-- The keys that open values of a namespace once it has its first key. -/
theorem opens_started_first (first : keysOf (.namespaced ns) state.security.ageKeypairs = [])
    (own : keypair.scope = .namespaced ns) (text : String)
    : Opens sealedUnder (state.started (.namespaced ns) keypair resealed).security ns text
      ↔ sealedUnder text = (keypair.scope, keypair.generation) := by
  have keys : keysOf (.namespaced ns)
      (addKeypair state.security.ageKeypairs (.namespaced ns) keypair) = _ :=
    keysOf_addKeypair own
  rw [first, List.map_nil, List.nil_append] at keys
  have listed (old : AgeKeypair)
      : old ∈ (state.started (.namespaced ns) keypair resealed).security.decryptionKeypairs ns
        ↔ old = keypair := by
    have only : old ∈ keysOf (.namespaced ns)
          (state.started (.namespaced ns) keypair resealed).security.ageKeypairs
        ↔ old = keypair := by
      rw [ageKeypairs_started, keys, List.mem_singleton]
    have present : keypair
        ∈ (state.started (.namespaced ns) keypair resealed).security.ageKeypairs := by
      rw [ageKeypairs_started]
      simp [addKeypair]
    rw [mem_decryptionKeypairs, effectiveSecretScope_of_key present own, ← mem_keysOf, only]
  simp only [Opens, listed, exists_eq_left]
  exact eq_comm

/-- A namespace's first key, re-encrypted values sealed under it, loses no value that could be read
exactly if every such value was re-encrypted. -/
theorem first_key_loses_nothing_iff (sealedUnder : String → AgeKeyScope × Nat) (S : Surroundings)
    (state : DesiredState) (entry : CouncilEntry) (ns : String) (keypair : AgeKeypair)
    (resealed : List ResealedSecret)
    (payload : entry.payload
        = .request (.rotateSecretKey (.namespaced ns) keypair resealed))
    (accepted : (state.applyEntry S entry).1 = .applied)
    (first : keysOf (.namespaced ns) state.security.ageKeypairs = [])
    (own : keypair.scope = .namespaced ns)
    (reencrypted : ∀ item ∈ resealed,
        sealedUnder item.sealed = (keypair.scope, keypair.generation))
    : (∀ appId envKey text,
        appId.ns = ns
        → slot state.apps appId envKey = some (.encrypted text)
        → Opens sealedUnder state.security ns text
        → ∃ text', slot (state.step S entry).apps appId envKey = some (.encrypted text')
            ∧ Opens sealedUnder (state.step S entry).security ns text')
      ↔ ReadEvery sealedUnder state ns resealed := by
  obtain ⟨apps, opens⟩ : (state.step S entry).apps = resealed.foldl resealValue state.apps
      ∧ ∀ text, Opens sealedUnder (state.step S entry).security ns text
          ↔ sealedUnder text = (keypair.scope, keypair.generation) := by
    rcases step_cases S state entry with
      ⟨_, _, _, payload', handled, _, after⟩ | ⟨_, refused, _⟩
    · rw [payload] at payload'
      obtain rfl := CouncilPayload.request.inj payload'
      rcases (rotateSecretKey_eq_ok.mp handled).2 with ⟨⟨_, listed, _⟩, _⟩ | ⟨_, _, rfl⟩
      · rw [first] at listed
        cases listed
      · rw [after]
        exact ⟨apps_started_first first, opens_started_first first own⟩
    · obtain ⟨_, _, refused⟩ := refused _ payload
      rw [refused] at accepted
      cases accepted
  -- A value that was readable was sealed cluster-wide, so the first key does not open it.
  have sealedBefore {text : String} (readable : Opens sealedUnder state.security ns text)
      : sealedUnder text ≠ (keypair.scope, keypair.generation) := by
    obtain ⟨_, listed, same⟩ := readable
    rw [mem_decryptionKeypairs, effectiveSecretScope_of_none first] at listed
    rw [← same, listed.2, own]
    simp
  rw [apps]
  constructor
  · intro kept appId envKey text inNamespace stored readable
    have present : appId ∈ state.apps := mem_of_slot stored
    obtain ⟨_, after, readable'⟩ := kept appId envKey text inNamespace stored readable
    rcases slot_resealed envKey present with ⟨item, listed, named, key, _⟩ | ⟨_, same⟩
    · exact ⟨item, listed, named, key⟩
    rw [same, stored] at after
    obtain rfl := EnvValue.encrypted.inj (Option.some.inj after)
    exact absurd ((opens text).mp readable') (sealedBefore readable)
  · intro listed appId envKey text inNamespace stored readable
    have present : appId ∈ state.apps := mem_of_slot stored
    rcases slot_resealed envKey present with ⟨item, inList, _, _, after⟩ | ⟨absent, _⟩
    · exact ⟨item.sealed, after, (opens _).mpr (reencrypted item inList)⟩
    · obtain ⟨item, inList, named⟩ := listed appId envKey text inNamespace stored readable
      exact absurd named (absent item inList)

-- A cluster-wide key, and an app of the namespace with one encrypted value.

def secretApp (text : String) : AppSpec :=
  { env := (∅ : BTreeMap String EnvValue).insert "TOKEN" (.encrypted text) }

def teamApp : AppId := ⟨"web", "team"⟩

/-- A cluster with one key and an app of a namespace without one. -/
def sealedClusterWide : DesiredState :=
  run plainSurroundings {} (requestEntries 1
    [.securityStateInit { ageKeypairs := [sampleKey .clusterWide 0] },
      .spec (.appSpec teamApp (secretApp "ENC[AGE:old]"))])

def sealedByText (text : String) : AgeKeyScope × Nat :=
  if text = "ENC[AGE:old]" then (.clusterWide, 0) else (.namespaced "team", 0)

/-- The app was written after the leader read the namespace, so that nothing is re-sealed. -/
theorem first_key_misses_later_write
    : ¬ ∀ (sealedUnder : String → AgeKeyScope × Nat) (S : Surroundings) (state : DesiredState)
        (entry : CouncilEntry) (ns : String) (keypair : AgeKeypair)
        (resealed : List ResealedSecret),
        entry.payload = .request (.rotateSecretKey (.namespaced ns) keypair resealed)
        → (state.applyEntry S entry).1 = .applied
        → keysOf (.namespaced ns) state.security.ageKeypairs = []
        → keypair.scope = .namespaced ns
        → (∀ item ∈ resealed, sealedUnder item.sealed = (keypair.scope, keypair.generation))
        → ∀ appId envKey text,
            appId.ns = ns
            → slot state.apps appId envKey = some (.encrypted text)
            → Opens sealedUnder state.security ns text
            → ∃ text', slot (state.step S entry).apps appId envKey = some (.encrypted text')
                ∧ Opens sealedUnder (state.step S entry).security ns text' := by
  intro claimed
  obtain ⟨_, stored, readable⟩ := claimed sealedByText plainSurroundings sealedClusterWide
    ⟨⟨1, 3⟩, .request (.rotateSecretKey (.namespaced "team")
      (sampleKey (.namespaced "team") 0) [])⟩
    "team" (sampleKey (.namespaced "team") 0) [] rfl (by decide +kernel) (by decide +kernel) rfl
    (by simp) teamApp "TOKEN" "ENC[AGE:old]" rfl (by decide +kernel)
    ⟨sampleKey .clusterWide 0, by decide +kernel, by decide⟩
  have unchanged : slot (sealedClusterWide.step plainSurroundings
      ⟨⟨1, 3⟩, .request (.rotateSecretKey (.namespaced "team")
        (sampleKey (.namespaced "team") 0) [])⟩).apps teamApp "TOKEN"
      = some (.encrypted "ENC[AGE:old]") := by
    decide +kernel
  rw [unchanged] at stored
  obtain rfl := EnvValue.encrypted.inj (Option.some.inj stored)
  revert readable
  unfold Opens
  decide +kernel

/-- The app's value is re-sealed with the first key. -/
theorem first_key_keeps_resealed
    : ∃ text, slot (sealedClusterWide.step plainSurroundings
        ⟨⟨1, 3⟩, .request (.rotateSecretKey (.namespaced "team")
          (sampleKey (.namespaced "team") 0)
          [⟨teamApp, "TOKEN", "ENC[AGE:old]", "ENC[AGE:new]"⟩])⟩).apps teamApp "TOKEN"
          = some (.encrypted text)
        ∧ Opens sealedByText (sealedClusterWide.step plainSurroundings
          ⟨⟨1, 3⟩, .request (.rotateSecretKey (.namespaced "team")
            (sampleKey (.namespaced "team") 0)
            [⟨teamApp, "TOKEN", "ENC[AGE:old]", "ENC[AGE:new]"⟩])⟩).security "team" text := by
  refine (first_key_loses_nothing_iff sealedByText plainSurroundings sealedClusterWide
    ⟨⟨1, 3⟩, .request (.rotateSecretKey (.namespaced "team") (sampleKey (.namespaced "team") 0)
      [⟨teamApp, "TOKEN", "ENC[AGE:old]", "ENC[AGE:new]"⟩])⟩
    "team" (sampleKey (.namespaced "team") 0)
    [⟨teamApp, "TOKEN", "ENC[AGE:old]", "ENC[AGE:new]"⟩] rfl (by decide +kernel)
    (by decide +kernel) rfl (by decide)).mpr ?_ teamApp "TOKEN" "ENC[AGE:old]" rfl
    (by decide +kernel) ⟨sampleKey .clusterWide 0, by decide +kernel, by decide⟩
  intro appId envKey text _ stored _
  have apps : sealedClusterWide.apps
      = (∅ : BTreeMap AppId AppSpec).insert teamApp (secretApp "ENC[AGE:old]") := by
    decide +kernel
  rw [apps, slot_insert] at stored
  split at stored
  · rename_i same
    rcases get_insert_cases stored with ⟨named, _⟩ | stored
    · exact ⟨_, List.mem_singleton_self _, same.symm, named⟩
    · simp at stored
  · simp [slot] at stored

end DesiredState

end Reliaburger
