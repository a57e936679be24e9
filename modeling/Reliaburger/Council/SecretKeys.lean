import Reliaburger.Council.Frame

/-! Rotating a scope's secret key: what the requests do to the keys, and when the end of one
rotation allows the next.
-/

namespace Reliaburger

open Checks

def keysOf (scope : AgeKeyScope) (keypairs : List AgeKeypair) : List AgeKeypair :=
  keypairs.filter (fun keypair => keypair.scope == scope)

@[simp] theorem mem_keysOf {scope : AgeKeyScope} {keypairs : List AgeKeypair}
    {keypair : AgeKeypair}
    : keypair ∈ keysOf scope keypairs ↔ keypair ∈ keypairs ∧ keypair.scope = scope := by
  simp [keysOf]

/-- An entry that starts no rotation of the scope, neither by name nor by the key it carries. -/
def CouncilEntry.LeavesScope (scope : AgeKeyScope) (entry : CouncilEntry) : Prop :=
  ∀ rotatedScope keypair resealed,
    entry.payload = .request (.rotateSecretKey rotatedScope keypair resealed)
    → rotatedScope ≠ scope ∧ keypair.scope ≠ scope

namespace DesiredState

variable {S : Surroundings} {state next : DesiredState} {entry : CouncilEntry}
  {scope : AgeKeyScope} {keypair : AgeKeypair} {resealed : List ResealedSecret}
  {answer : CouncilResponse}

-- What the requests do to the keys

/-- The keys that a first key or a rotation starts from: none is of its generation, and no
rotation is in flight. -/
structure StartsRotation (keypairs : List AgeKeypair) (scope : AgeKeyScope)
    (keypair : AgeKeypair)
    : Prop where
  unused : ∀ old ∈ keysOf scope keypairs, old.generation ≠ keypair.generation
  settled : ∀ old ∈ keysOf scope keypairs, old.readOnly = false

@[simp] theorem isFirstKey_eq
    : state.isFirstKey scope = (keysOf scope state.security.ageKeypairs).isEmpty := by
  rw [isFirstKey, keysOf, Bool.eq_iff_iff]
  simp

/-- A started rotation is a retry, or starts from settled keys. -/
theorem rotateSecretKey_eq_ok
    : state.rotateSecretKey scope keypair resealed = .ok (answer, next)
      ↔ answer = .applied
        ∧ (((∃ old ∈ keysOf scope state.security.ageKeypairs,
              old.generation = keypair.generation)
            ∧ next = state)
          ∨ (StartsRotation state.security.ageKeypairs scope keypair
            ∧ state.checkCarried scope (keysOf scope state.security.ageKeypairs).isEmpty resealed
              = .ok ()
            ∧ next = state.started scope keypair resealed)) := by
  have used : state.security.ageKeypairs.any (fun old =>
        old.scope == scope && old.generation == keypair.generation) = true
      ↔ ∃ old ∈ keysOf scope state.security.ageKeypairs, old.generation = keypair.generation := by
    simp [and_assoc]
  have busy : state.security.ageKeypairs.any (fun old => old.scope == scope && old.readOnly) = true
      ↔ ¬ ∀ old ∈ keysOf scope state.security.ageKeypairs, old.readOnly = false := by
    simp
  unfold rotateSecretKey
  dsimp only
  rw [isFirstKey_eq]
  split
  · rename_i retry
    rw [used] at retry
    simp only [accept, Except.ok.injEq, Prod.mk.injEq]
    constructor
    · rintro ⟨rfl, rfl⟩
      exact ⟨rfl, .inl ⟨retry, rfl⟩⟩
    rintro ⟨rfl, ⟨_, rfl⟩ | ⟨starts, _⟩⟩
    · exact ⟨rfl, rfl⟩
    · obtain ⟨old, listed, same⟩ := retry
      exact absurd same (starts.unused old listed)
  · rename_i fresh
    rw [used] at fresh
    simp only [bind_eq_ok, refuseWhen, refuseIf_eq_ok, busy, not_not, mapError_eq_ok]
    constructor
    · rintro ⟨_, settled, _, carried, accepted⟩
      cases accepted
      exact ⟨rfl, .inr ⟨⟨fun old listed same => fresh ⟨old, listed, same⟩, settled⟩, carried,
        rfl⟩⟩
    · rintro ⟨rfl, ⟨used, _⟩ | ⟨starts, carried, rfl⟩⟩
      · exact absurd used fresh
      · exact ⟨(), starts.settled, (), carried, rfl⟩

theorem finalizeSecretRotation_eq_ok
    : state.finalizeSecretRotation scope = .ok (answer, next)
      ↔ answer = .applied
        ∧ (∃ active ∈ keysOf scope state.security.ageKeypairs, active.readOnly = false)
        ∧ state.staleSealedSecrets scope (newestGeneration state.security.ageKeypairs scope) = []
        ∧ next = state.withSecurity { state.security with
            ageKeypairs := state.security.ageKeypairs.filter (survivesFinalize scope) } := by
  have ready : ¬ state.security.ageKeypairs.any (fun keypair =>
        keypair.scope == scope && !keypair.readOnly) = false
      ↔ ∃ active ∈ keysOf scope state.security.ageKeypairs, active.readOnly = false := by
    simp [and_assoc]
  unfold finalizeSecretRotation
  simp only [bind_eq_ok, refuseWhen, refuseIf_eq_ok, accept, ready, ne_eq, not_not]
  constructor
  · rintro ⟨_, active, _, fresh, accepted⟩
    cases accepted
    exact ⟨rfl, active, fresh, rfl⟩
  · rintro ⟨rfl, active, fresh, rfl⟩
    exact ⟨(), active, (), fresh, rfl⟩

theorem ageKeypairs_started
    : (state.started scope keypair resealed).security.ageKeypairs
      = addKeypair state.security.ageKeypairs scope keypair := by
  unfold started
  split
  · rfl
  split
  · exact framed_adoptNamespaceKey _ _ _ .ageKeypairs (by simp)
  · rfl

-- One scope's keys

variable {keypairs : List AgeKeypair}

theorem keysOf_addKeypair_ne {other : AgeKeyScope}
    (apart : other ≠ scope) (carried : keypair.scope ≠ scope)
    : keysOf scope (addKeypair keypairs other keypair) = keysOf scope keypairs := by
  unfold addKeypair keysOf
  rw [List.filter_append, List.filter_singleton, beq_false_of_ne carried, cond_false,
    List.append_nil]
  induction keypairs with
  | nil => rfl
  | cons old rest ih =>
    rw [List.map_cons, List.filter_cons, List.filter_cons, ih]
    by_cases rotates : old.scope = other
    · simp [rotates, apart]
    · simp [rotates]

theorem keysOf_addKeypair (own : keypair.scope = scope)
    : keysOf scope (addKeypair keypairs scope keypair)
      = (keysOf scope keypairs).map (fun old => { old with readOnly := true }) ++ [keypair] := by
  unfold addKeypair keysOf
  rw [List.filter_append, List.filter_singleton, beq_iff_eq.mpr own, cond_true]
  congr 1
  induction keypairs with
  | nil => rfl
  | cons old rest ih =>
    rw [List.map_cons, List.filter_cons, List.filter_cons, ih]
    by_cases rotates : old.scope = scope <;> simp [rotates]

/-- No rotation is left to finish: at most the key of the root CA's backup is read-only. -/
def Settled (keys : List AgeKeypair) : Prop :=
  ∀ keypair ∈ keys, keypair.readOnly = true → keypair.opensRootCaBackup = true

theorem keysOf_finalized {finished : AgeKeyScope}
    (settled : Settled (keysOf scope keypairs))
    : keysOf scope (keypairs.filter (survivesFinalize finished)) = keysOf scope keypairs := by
  unfold keysOf
  rw [List.filter_filter]
  refine List.filter_congr fun keypair listed => ?_
  by_cases own : keypair.scope = scope
  · have backup := settled keypair (by simp [listed, own])
    cases writes : keypair.readOnly <;> simp_all [survivesFinalize]
  · simp [own]

/-- Between rotations of a scope nothing changes its keys. -/
theorem keysOf_step (leaves : entry.LeavesScope scope)
    (filled : keysOf scope state.security.ageKeypairs ≠ [])
    (settled : Settled (keysOf scope state.security.ageKeypairs))
    : keysOf scope (state.step S entry).security.ageKeypairs
      = keysOf scope state.security.ageKeypairs := by
  rcases step_cases S state entry with
    ⟨request, _, next, payload, handled, _, after⟩ | ⟨_, _, after⟩
  · rw [after]
    by_cases touches : Area.ageKeypairs ∈ request.touches
    · cases request with
      | securityStateInit seed =>
        obtain ⟨none, _⟩ := securityStateInit_ok handled
        exact absurd (by rw [none]; rfl) filled
      | rotateSecretKey rotatedScope keypair resealed =>
        obtain ⟨apart, carried⟩ := leaves _ _ _ payload
        rcases (rotateSecretKey_eq_ok.mp handled).2 with ⟨_, rfl⟩ | ⟨_, _, rfl⟩
        · rfl
        · rw [ageKeypairs_started]
          exact keysOf_addKeypair_ne apart carried
      | finalizeSecretRotation finished =>
        obtain ⟨_, _, _, rfl⟩ := finalizeSecretRotation_eq_ok.mp handled
        exact keysOf_finalized settled
      | _ => simp [CouncilRequest.touches, specAreas] at touches
    · have same : next.security.ageKeypairs = state.security.ageKeypairs :=
        handle_frames request _ handled .ageKeypairs touches
      rw [same]
  · rw [after]

theorem keysOf_run {entries : List CouncilEntry}
    (leaves : ∀ entry ∈ entries, entry.LeavesScope scope)
    (filled : keysOf scope state.security.ageKeypairs ≠ [])
    (settled : Settled (keysOf scope state.security.ageKeypairs))
    : keysOf scope (state.run S entries).security.ageKeypairs
      = keysOf scope state.security.ageKeypairs := by
  have meets : Runs.Meets (step S) (fun _ entry => entry.LeavesScope scope) state entries :=
    Runs.meets_of_forall leaves
  refine meets.invariant (fun later => keysOf scope later.security.ageKeypairs
    = keysOf scope state.security.ageKeypairs) ?_ rfl
  intro later entry same leaves
  exact (keysOf_step leaves (same ▸ filled) (same ▸ settled)).trans same

theorem activeAgeKeypair_of_writable {security : SecurityState}
    (only : (keysOf scope security.ageKeypairs).filter (fun old => !old.readOnly) = [keypair])
    : security.activeAgeKeypair scope = some keypair := by
  have writable : security.ageKeypairs.filter (fun old => old.scope == scope && !old.readOnly)
      = [keypair] := by
    rw [← only, keysOf, List.filter_filter]
    exact List.filter_congr fun old _ => Bool.and_comm _ _
  rw [SecurityState.activeAgeKeypair, writable, Extremes.maxBy_singleton, Option.some_or]

/-- Rotating a scope whose keys are all older starts unless one of them is read-only; then the new
key is the only one that encrypts. -/
theorem rotate_newest (S : Surroundings) (own : keypair.scope = scope)
    (writable : keypair.readOnly = false)
    (payload : entry.payload = .request (.rotateSecretKey scope keypair []))
    (above : ∀ old ∈ keysOf scope state.security.ageKeypairs,
        old.generation < keypair.generation)
    : ((state.applyEntry S entry).1 = .applied
        ∧ (keysOf scope (state.step S entry).security.ageKeypairs).filter
            (fun old => !old.readOnly) = [keypair]
        ∧ (state.step S entry).security.activeAgeKeypair scope = some keypair)
      ↔ ∀ old ∈ keysOf scope state.security.ageKeypairs, old.readOnly = false := by
  constructor
  · rintro ⟨accepted, _⟩
    rcases step_cases S state entry with
      ⟨_, _, next, payload', handled, _⟩ | ⟨_, refused, _⟩
    · rw [payload] at payload'
      obtain rfl := CouncilPayload.request.inj payload'
      rcases (rotateSecretKey_eq_ok.mp handled).2 with ⟨⟨old, listed, same⟩, _⟩ | ⟨starts, _⟩
      · exact absurd same (above old listed).ne
      · exact starts.settled
    · obtain ⟨_, _, refused⟩ := refused _ payload
      rw [refused] at accepted
      cases accepted
  · intro settled
    have handled : ({ state with lastApplied := some entry.logId } : DesiredState).handle S
        ⟨state.lastApplied, some entry.logId⟩ (.rotateSecretKey scope keypair [])
        = .ok (.applied, started { state with lastApplied := some entry.logId } scope keypair []) :=
      rotateSecretKey_eq_ok.mpr ⟨rfl, .inr ⟨⟨fun old listed => (above old listed).ne, settled⟩,
        rfl, rfl⟩⟩
    have applied : state.applyEntry S entry
        = (.applied, started { state with lastApplied := some entry.logId } scope keypair []) := by
      simp [applyEntry, payload, handled]
    have only : (keysOf scope (state.step S entry).security.ageKeypairs).filter
        (fun old => !old.readOnly) = [keypair] := by
      rw [step, applied, ageKeypairs_started, keysOf_addKeypair own]
      simp [List.filter_append, List.filter_map, Function.comp_def, writable]
    exact ⟨by rw [applied], only, activeAgeKeypair_of_writable only⟩

-- One rotation after another

/-- After a scope's rotation was finalised, and nothing else rotated the scope, the next rotation
starts, with its key the only one that encrypts, exactly if the finalised one did not leave the key
of the root CA's backup read-only. -/
theorem next_rotation_starts_iff (S : Surroundings) (state : DesiredState) (scope : AgeKeyScope)
    (finalise rotate : CouncilEntry) (between : List CouncilEntry) (keypair : AgeKeypair)
    (finalises : finalise.payload = .request (.finalizeSecretRotation scope))
    (accepted : (state.applyEntry S finalise).1 = .applied)
    (quiet : ∀ entry ∈ between, entry.LeavesScope scope)
    (rotates : rotate.payload = .request (.rotateSecretKey scope keypair []))
    (own : keypair.scope = scope) (writable : keypair.readOnly = false)
    (above : ∀ old ∈ keysOf scope
          ((state.step S finalise).run S between).security.ageKeypairs,
        old.generation < keypair.generation)
    : ((((state.step S finalise).run S between).applyEntry S rotate).1 = .applied
        ∧ (keysOf scope
            (((state.step S finalise).run S between).step S rotate).security.ageKeypairs).filter
            (fun old => !old.readOnly) = [keypair]
        ∧ (((state.step S finalise).run S between).step S rotate).security.activeAgeKeypair scope
          = some keypair)
      ↔ ∀ old ∈ keysOf scope state.security.ageKeypairs,
          old.readOnly = true → old.opensRootCaBackup = false := by
  obtain ⟨active, finished⟩ : (∃ active ∈ keysOf scope state.security.ageKeypairs,
        active.readOnly = false)
      ∧ (state.step S finalise).security.ageKeypairs
        = state.security.ageKeypairs.filter (survivesFinalize scope) := by
    rcases step_cases S state finalise with
      ⟨_, _, _, payload, handled, _, after⟩ | ⟨_, refused, _⟩
    · rw [finalises] at payload
      obtain rfl := CouncilPayload.request.inj payload
      obtain ⟨_, active, _, rfl⟩ := finalizeSecretRotation_eq_ok.mp handled
      exact ⟨active, by rw [after]; rfl⟩
    · obtain ⟨_, _, refused⟩ := refused _ finalises
      rw [refused] at accepted
      cases accepted
  have kept (old : AgeKeypair)
      : old ∈ keysOf scope (state.step S finalise).security.ageKeypairs
        ↔ old ∈ keysOf scope state.security.ageKeypairs
          ∧ (old.readOnly = false ∨ old.opensRootCaBackup = true) := by
    rw [finished]
    simp only [mem_keysOf, List.mem_filter, survivesFinalize, Bool.or_eq_true, bne_iff_ne,
      Bool.not_eq_true']
    tauto
  have filled : keysOf scope (state.step S finalise).security.ageKeypairs ≠ [] := by
    obtain ⟨active, listed, writes⟩ := active
    exact List.ne_nil_of_mem ((kept active).mpr ⟨listed, .inl writes⟩)
  have settled : Settled (keysOf scope (state.step S finalise).security.ageKeypairs) := by
    intro old listed reads
    simpa [reads] using ((kept old).mp listed).2
  have same := keysOf_run (S := S) quiet filled settled
  rw [rotate_newest S own writable rotates above, same]
  constructor
  · intro writable old listed reads
    cases backup : old.opensRootCaBackup with
    | false => rfl
    | true => simpa [reads] using writable old ((kept old).mpr ⟨listed, .inr backup⟩)
  · intro noBackup old listed
    obtain ⟨listed, survives⟩ := (kept old).mp listed
    cases reads : old.readOnly with
    | false => rfl
    | true => simp [reads, noBackup old listed reads] at survives

def sampleKey (scope : AgeKeyScope) (generation : Nat) : AgeKeypair :=
  ⟨scope, "public", "wrapped", generation, false⟩

/-- A cluster whose first rotation of a scope waits to be finalised. -/
def rotatedOnce (scope : AgeKeyScope) : DesiredState :=
  run plainSurroundings {} (requestEntries 1
    [.securityStateInit { ageKeypairs := [sampleKey scope 0] },
      .rotateSecretKey scope (sampleKey scope 1) []])

/-- The first cluster-wide key stays as read-only after its rotation was finalised, which the next
rotation takes for a rotation in progress. -/
theorem second_cluster_rotation_refused
    : ¬ ∀ (S : Surroundings) (state : DesiredState) (scope : AgeKeyScope)
        (finalise rotate : CouncilEntry) (between : List CouncilEntry) (keypair : AgeKeypair),
        finalise.payload = .request (.finalizeSecretRotation scope)
        → (state.applyEntry S finalise).1 = .applied
        → (∀ entry ∈ between, entry.LeavesScope scope)
        → rotate.payload = .request (.rotateSecretKey scope keypair [])
        → keypair.scope = scope
        → keypair.readOnly = false
        → (∀ old ∈ keysOf scope ((state.step S finalise).run S between).security.ageKeypairs,
            old.generation < keypair.generation)
        → (((state.step S finalise).run S between).applyEntry S rotate).1 = .applied := by
  intro claimed
  have accepted := claimed plainSurroundings (rotatedOnce .clusterWide) .clusterWide
    ⟨⟨1, 3⟩, .request (.finalizeSecretRotation .clusterWide)⟩
    ⟨⟨1, 4⟩, .request (.rotateSecretKey .clusterWide (sampleKey .clusterWide 2) [])⟩ []
    (sampleKey .clusterWide 2) rfl (by decide +kernel) (by simp) rfl rfl rfl (by decide +kernel)
  revert accepted
  decide +kernel

/-- A namespace's key is rotated a second time. -/
theorem second_namespace_rotation_starts
    : (((rotatedOnce (.namespaced "team")).step plainSurroundings
          ⟨⟨1, 3⟩, .request (.finalizeSecretRotation (.namespaced "team"))⟩).step
        plainSurroundings
        ⟨⟨1, 4⟩, .request (.rotateSecretKey (.namespaced "team")
          (sampleKey (.namespaced "team") 2) [])⟩).security.activeAgeKeypair (.namespaced "team")
      = some (sampleKey (.namespaced "team") 2) :=
  ((next_rotation_starts_iff plainSurroundings (rotatedOnce (.namespaced "team"))
    (.namespaced "team") ⟨⟨1, 3⟩, .request (.finalizeSecretRotation (.namespaced "team"))⟩
    ⟨⟨1, 4⟩, .request (.rotateSecretKey (.namespaced "team")
      (sampleKey (.namespaced "team") 2) [])⟩ [] (sampleKey (.namespaced "team") 2) rfl
    (by decide +kernel) (by simp) rfl rfl rfl (by decide +kernel)).mpr
    (by decide +kernel)).2.2

end DesiredState

end Reliaburger
