import Reliaburger.Council.Apply

/-! What a request leaves alone. The state is divided into areas, every request touches a few of
them, and all others are the same after it: an invariant needs only look at the requests that
touch the areas it speaks about.
-/

namespace Reliaburger

open Checks CouncilRequest SecurityState

inductive Area where
  | apps
  /-- What is recorded about apps: declarations, stops, rollouts, notes, overrides and what
  GitOps owns. -/
  | records
  | seals
  | namespaces
  | policies
  | jobs
  | scheduling
  | registry
  | endpoints
  | ageKeypairs
  | apiTokens
  | joinTokens
  | nextSerial
  | certificates
  | retiredNodes
  | testLeases
  | faults
  | membership
deriving DecidableEq, Repr

/-- Whether two states are the same in an area. -/
@[simp] def Area.Agrees (state next : DesiredState) : Area → Prop
  | .apps => next.apps = state.apps
  | .records =>
    next.declaredApps = state.declaredApps
      ∧ next.stoppedApps = state.stoppedApps
      ∧ next.rollouts = state.rollouts
      ∧ next.quotaBlocked = state.quotaBlocked
      ∧ next.unschedulable = state.unschedulable
      ∧ next.autoscaleOverrides = state.autoscaleOverrides
      ∧ next.gitopsOwned = state.gitopsOwned
  | .seals => next.security.secretSeals = state.security.secretSeals
  | .namespaces => next.namespaces = state.namespaces
  | .policies =>
    next.permissions = state.permissions
      ∧ next.policies = state.policies
      ∧ next.policyGeneration = state.policyGeneration
  | .jobs => next.taskArrays = state.taskArrays ∧ next.nextBatchId = state.nextBatchId
  | .scheduling => next.scheduling = state.scheduling
  | .registry => next.registry = state.registry
  | .endpoints => next.endpoints = state.endpoints
  | .ageKeypairs => next.security.ageKeypairs = state.security.ageKeypairs
  | .apiTokens => next.security.apiTokens = state.security.apiTokens
  | .joinTokens => next.security.joinTokens = state.security.joinTokens
  | .nextSerial => next.security.nextSerial = state.security.nextSerial
  | .certificates =>
    next.security.certificateAuthorities = state.security.certificateAuthorities
      ∧ next.security.nodeLeaves = state.security.nodeLeaves
      ∧ next.security.pendingIntermediates = state.security.pendingIntermediates
  | .retiredNodes => next.security.crl.retiredNodes = state.security.crl.retiredNodes
  | .testLeases => next.testLeases = state.testLeases
  | .faults => next.nodeFaultReservations = state.nodeFaultReservations
  | .membership => next.membership = state.membership

@[simp] def specAreas : List Area :=
  [.apps, .records, .seals, .namespaces, .policies, .scheduling]

def CouncilRequest.touches : CouncilRequest → List Area
  | .spec _ | .gitOpsWrite _ _ => specAreas
  | .policyFenced _ _ _ => .testLeases :: specAreas
  | .appStop _ | .autoscaleOverride _ _ _ | .rolloutFailed _ _ | .rolloutReleased _ _
  | .quotaBlocked _ | .unschedulable _ => [.records]
  | .appRelease _ => [.apps]
  | .taskArray _ => [.jobs]
  | .jobApplyCommit _ _ => .jobs :: specAreas
  | .reserveNodeFault _ _ _ | .releaseNodeFault _ => [.faults]
  | .schedulingDecision _ | .updateLayerLocations | .bookkeeping | .revokeCertificate _ => []
  | .schedulingDecisions _ _ => [.scheduling, .testLeases]
  | .manifestCommit _ | .confirmImageCopy _ | .gcReport _ | .deleteTag _ | .expireManifest _
  | .attachSignature _ | .testLeaseManifestCommit _ _ _ => [.registry]
  | .securityStateInit _ =>
    [.seals, .ageKeypairs, .apiTokens, .joinTokens, .nextSerial, .certificates, .retiredNodes]
  | .createJoinToken _ | .consumeJoinToken _ => [.joinTokens]
  | .consumeJoinTokenForIssue _ => [.joinTokens, .nextSerial, .certificates]
  | .allocateSerial => [.nextSerial]
  | .allocateNodeSerial _ | .caRotationPrepare _ _ _ _ => [.nextSerial, .certificates]
  | .createApiToken _ | .revokeApiToken _ | .rotateApiToken _ | .sweepExpiredApiTokens _
  | .testLeaseRevokeApiToken _ _ _ => [.apiTokens]
  | .rotateSecretKey _ _ _ => [.ageKeypairs, .apps, .seals]
  | .finalizeSecretRotation _ => [.ageKeypairs]
  | .caRotationBegin _ _ | .acknowledgeNodeTrust _ _ | .caRotationFinalize _ _ => [.certificates]
  | .registerEndpointConsumer _ | .acknowledgeEndpointWithdrawal _ _
  | .dischargeEndpointConsumer _ | .retireEndpointExecution _ _ | .publishEndpoints _ _ =>
    [.endpoints]
  | .testLeaseCreate _ | .testLeaseRegistryWriter _ _ _ _ _ | .testLeaseWorkloadsRetired _
  | .testLeaseRegistryRetired _ _ _ | .testLeaseJobs _ _ _ | .testLeaseRenew _ _ _ _
  | .testLeaseBeginCleanup _ | .testLeasePlacementRetired _ _ | .testLeaseCleanupFailed _ _ =>
    [.testLeases]
  | .testLeaseAppSpec _ _ _ _ => .testLeases :: specAreas
  | .testLeaseNamespaceSpec _ _ _ _ => [.testLeases, .namespaces]
  | .testLeaseApiToken _ _ _ _ => [.testLeases, .apiTokens]
  | .testLeaseFinishCleanup _ => [.testLeases, .registry]
  | .testLeaseAppDelete _ _ | .testLeaseNamespaceDelete _ _ => specAreas
  | .decommissionNode _ _ _ _ _ =>
    [.endpoints, .testLeases, .scheduling, .registry, .faults, .retiredNodes]

/-- Two states agree in every area but the listed ones. -/
def Framed (areas : List Area) (state next : DesiredState) : Prop :=
  ∀ area, area ∉ areas → area.Agrees state next

/-- An accepted request changes only the listed areas. -/
def Frames (areas : List Area) (state : DesiredState) (answered : Answered) : Prop :=
  Ensures answered (fun answer => Framed areas state answer.2)

/-- Agreement outside the listed areas, area by area. -/
theorem framed_iff {areas : List Area} {state next : DesiredState}
    : Framed areas state next
      ↔ let kept (area : Area) := area ∉ areas → area.Agrees state next
        kept .apps ∧ kept .records ∧ kept .seals ∧ kept .namespaces ∧ kept .policies
        ∧ kept .jobs ∧ kept .scheduling ∧ kept .registry ∧ kept .endpoints ∧ kept .ageKeypairs
        ∧ kept .apiTokens ∧ kept .joinTokens ∧ kept .nextSerial ∧ kept .certificates
        ∧ kept .retiredNodes ∧ kept .testLeases ∧ kept .faults ∧ kept .membership := by
  constructor
  · intro framed
    repeat' apply And.intro
    all_goals exact framed _
  · rintro ⟨_, _, _, _, _, _, _, _, _, _, _, _, _, _, _, _, _, _⟩ area
    cases area <;> assumption

namespace Framed

variable {areas : List Area} {state next later : DesiredState}

theorem refl (areas : List Area) (state : DesiredState) : Framed areas state state := by
  intro area _
  cases area <;> simp [Area.Agrees]

theorem trans (first : Framed areas state next) (second : Framed areas next later)
    : Framed areas state later := by
  intro area outside
  have before := first area outside
  have after := second area outside
  cases area <;> simp_all [Area.Agrees]

theorem mono {more : List Area} (included : areas ⊆ more) (framed : Framed areas state next)
    : Framed more state next :=
  fun area outside => framed area (fun inside => outside (included inside))

end Framed

namespace DesiredState

variable {S : Surroundings} {state : DesiredState} {position : ApplyEntryPosition}

-- Workloads

theorem framed_applyAppSpec (state : DesiredState) (appId : AppId) (spec : AppSpec)
    : Framed specAreas state (state.applyAppSpec appId spec) := by
  simp [framed_iff, applyAppSpec, recordSecretSeals]

theorem frames_removeApp (appId : AppId) : Frames specAreas state (state.removeApp appId) :=
  ensures_bind fun _ _ => ensures_ok (by simp [framed_iff, withoutApp])

theorem frames_appSpec (appId : AppId) (spec : AppSpec)
    : Frames specAreas state (state.appSpec S appId spec) := by
  repeat refine ensures_bind fun _ _ => ?_
  exact ensures_ok (framed_applyAppSpec state appId spec)

theorem frames_specWrite (write : SpecWrite)
    : Frames specAreas state (state.specWrite S write) := by
  cases write with
  | appSpec appId spec => exact frames_appSpec appId spec
  | appDelete appId => exact ensures_bind fun _ _ => frames_removeApp appId
  | _ =>
    repeat refine ensures_bind fun _ _ => ?_
    exact ensures_ok (by simp [framed_iff, removeNamespace])

variable {next : DesiredState}

theorem framed_stageWrites {writes : List SpecWrite}
    (staged : stageWrites S writes state = .ok next)
    : Framed specAreas state next := by
  induction writes generalizing state with
  | nil =>
    cases staged
    exact .refl _ _
  | cons write rest ih =>
    obtain ⟨⟨_, _⟩, written, after⟩ := bind_eq_ok.mp staged
    exact (frames_specWrite write _ written).trans (ih after)

theorem frames_gitOpsWrite (term : Nat) (change : Option SpecWrite)
    : Frames specAreas state (state.gitOpsWrite S position term change) := by
  refine ensures_bind fun _ _ => ?_
  split
  · exact ensures_throw
  rename_i change
  split
  · exact ensures_throw
  split
  · exact ensures_throw
  · refine ensures_bind fun answer written => ensures_pure ?_
    exact (frames_specWrite change _ written).trans (by simp [framed_iff])

-- Jobs

theorem frames_taskArray (write : TaskArrayWrite)
    : Frames [.jobs] state (state.taskArray S write) := by
  refine ensures_bind fun _ _ => ensures_bind fun _ _ => ensures_bind fun _ _ => ?_
  rcases ({ store := state.taskArrays } : Machine).apply S.platform
    (batchIdSupply state.nextBatchId) write with ⟨answer, _⟩
  cases answer <;> exact ensures_pure (by simp [framed_iff])

theorem frames_jobApplyCommit (operationId : String) (nowEpochSecs : Nat)
    : Frames (.jobs :: specAreas) state (state.jobApplyCommit S operationId nowEpochSecs) := by
  unfold jobApplyCommit
  split
  · exact ensures_throw
  refine ensures_bind fun _ _ => ?_
  split
  · exact ensures_ok (.refl _ state)
  refine ensures_bind fun _ _ => ensures_bind fun ⟨answer, staged⟩ admitted => ?_
  have jobs := (frames_taskArray _ _ admitted).mono
    (show [Area.jobs] ⊆ .jobs :: specAreas by simp)
  dsimp only
  split
  · exact ensures_throw
  · refine ensures_bind fun published written => ensures_ok ?_
    exact jobs.trans ((framed_stageWrites written).mono (by simp))

-- Placements and the registry

theorem framed_applySchedulingDecision {decision : SchedulingDecision}
    (placed : state.applySchedulingDecision decision = .ok next)
    : Framed [.scheduling, .testLeases] state next := by
  have recorded : Ensures (state.recordLeasedPlacements decision)
      (Framed [.scheduling, .testLeases] state) := by
    unfold recordLeasedPlacements
    split
    · exact ensures_throw
    · repeat refine ensures_bind fun _ _ => ?_
      exact ensures_pure (by simp [framed_iff])
  suffices Ensures (state.applySchedulingDecision decision)
      (Framed [.scheduling, .testLeases] state) from this next placed
  refine ensures_bind fun _ _ => ensures_bind fun _ _ => ?_
  dsimp only
  split
  · refine ensures_bind fun leased found => ensures_pure ?_
    exact (recorded leased found).trans (by simp [framed_iff])
  · exact ensures_pure (by simp [framed_iff])

theorem framed_applyDecisions {decisions : List SchedulingDecision} {identities : List AppId}
    (placed : applyDecisions decisions identities state = .ok next)
    : Framed [.scheduling, .testLeases] state next := by
  induction decisions generalizing identities state with
  | nil =>
    cases placed
    exact .refl _ _
  | cons decision rest ih =>
    obtain ⟨_, _, remaining⟩ := bind_eq_ok.mp placed
    obtain ⟨_, first, after⟩ := bind_eq_ok.mp remaining
    exact (framed_applySchedulingDecision first).trans (ih after)

-- Credentials

theorem recordSecretSeals_fold (entries : List (AppId × AppSpec)) (security : SecurityState)
    : let recorded := entries.foldl (fun security entry =>
        security.recordSecretSeals entry.1 entry.2) security
      recorded = { security with secretSeals := recorded.secretSeals } := by
  induction entries generalizing security with
  | nil => rfl
  | cons entry rest ih =>
    rw [List.foldl_cons]
    exact (ih _).trans rfl

theorem framed_adoptNamespaceKey (state : DesiredState) (ns : String)
    (resealed : List ResealedSecret)
    : Framed [.apps, .seals] state (state.adoptNamespaceKey ns resealed) := by
  unfold adoptNamespaceKey
  dsimp only
  rw [recordSecretSeals_fold]
  simp [framed_iff]

theorem framed_started (state : DesiredState) (scope : AgeKeyScope) (newKeypair : AgeKeypair)
    (resealed : List ResealedSecret)
    : Framed [.ageKeypairs, .apps, .seals] state (state.started scope newKeypair resealed) := by
  have keyed : Framed [.ageKeypairs, .apps, .seals] state (state.rotated scope newKeypair) := by
    simp [framed_iff, rotated, withSecurity]
  unfold started
  split
  · exact keyed
  split
  · exact keyed.trans ((framed_adoptNamespaceKey _ _ _).mono (by simp))
  · exact keyed

theorem frames_rotateSecretKey (scope : AgeKeyScope) (newKeypair : AgeKeypair)
    (resealed : List ResealedSecret)
    : Frames [.ageKeypairs, .apps, .seals] state
      (state.rotateSecretKey scope newKeypair resealed) := by
  unfold rotateSecretKey
  dsimp only
  split
  · exact ensures_ok (.refl _ state)
  · exact ensures_bind fun _ _ => ensures_bind fun _ _ =>
      ensures_ok (framed_started state scope newKeypair resealed)

-- Discovery, leases and decommissioning

theorem frames_testLeaseAppSpec (leaseId : String) (observedAtUnixMs : Nat) (appId : AppId)
    (spec : AppSpec)
    : Frames (.testLeases :: specAreas) state
      (state.testLeaseAppSpec S leaseId observedAtUnixMs appId spec) := by
  repeat refine ensures_bind fun _ _ => ?_
  refine ensures_ok (Framed.trans ?_ ((framed_applyAppSpec _ appId spec).mono (by simp)))
  simp [framed_iff, putLease]

-- Requests

theorem frames_policyFenced (generation : Nat) (change : FencedChange)
    (declared : Option AppSpec)
    : Frames (.testLeases :: specAreas) state
      (state.policyFenced S position generation change declared) := by
  unfold policyFenced
  split
  · exact ensures_throw
  split
  · exact ensures_pure (.refl _ state)
  refine ensures_bind fun answer written => ensures_pure ?_
  have inner : Framed (.testLeases :: specAreas) state answer.2 := by
    cases change with
    | appSpec appId spec => exact (frames_appSpec appId spec _ written).mono (by simp)
    | testLeaseAppSpec leaseId observedAt appId spec =>
      exact frames_testLeaseAppSpec leaseId observedAt appId spec _ written
    | gitOpsAppSpec term appId spec =>
      exact (frames_gitOpsWrite term (some (.appSpec appId spec)) answer
        (show state.gitOpsWrite S position term _ = _ from written)).mono (by simp)
    | other => exact absurd written (by simp [fencedChange])
  exact inner.trans (by simp [framed_iff])

/-- Every request changes only the areas it touches. -/
theorem handle_frames (request : CouncilRequest)
    : Frames request.touches state (state.handle S position request) := by
  cases request with
  | spec write => exact frames_specWrite write
  | gitOpsWrite => exact frames_gitOpsWrite _ _
  | policyFenced => exact frames_policyFenced _ _ _
  | taskArray => exact frames_taskArray _
  | jobApplyCommit => exact frames_jobApplyCommit _ _
  | schedulingDecision | updateLayerLocations => exact ensures_error
  | schedulingDecisions =>
    exact ensures_bind fun _ _ => ensures_bind fun _ _ => ensures_bind fun _ placed =>
      ensures_ok (framed_applyDecisions placed)
  | rotateSecretKey => exact frames_rotateSecretKey _ _ _
  | caRotationBegin | caRotationPrepare | acknowledgeNodeTrust | caRotationFinalize =>
    refine ensures_bind fun value mapped => ensures_ok ?_
    revert value
    simp only [mapError_eq_ok, begin, prepare, acknowledgeTrust, finalize]
    repeat' first
      | exact ensures_throw
      | refine ensures_bind fun _ _ => ?_
      | split
    all_goals
      exact ensures_pure (by
        simp [framed_iff, touches, withSecurity, takeSerial])
  | testLeaseAppSpec => exact frames_testLeaseAppSpec _ _ _ _
  | testLeaseAppDelete => exact ensures_bind fun _ _ => frames_removeApp _
  | appRelease | autoscaleOverride | rolloutFailed | manifestCommit | confirmImageCopy
  | consumeJoinTokenForIssue | testLeaseManifestCommit | testLeaseRegistryRetired
  | testLeaseCleanupFailed | decommissionNode | gcReport =>
    -- These look something up, and refuse or leave the state alone without it.
    simp only [handle, appRelease, autoscaleOverride, rolloutFailed, manifestCommit,
      confirmImageCopy, consumeJoinTokenForIssue, testLeaseManifestCommit,
      testLeaseRegistryRetired, testLeaseCleanupFailed, decommissionNode, gcReport]
    repeat' first
      | exact ensures_throw
      | refine ensures_bind fun _ _ => ?_
      | split
    all_goals
      exact ensures_ok (by
        simp [framed_iff, touches, withSecurity, recordNodeLeaf,
          withCatalog, putLease])
  | _ =>
    -- The others make their checks and then write the areas in one go.
    repeat refine ensures_bind fun _ _ => ?_
    exact ensures_ok (by
      simp [framed_iff, touches, withSecurity, recordNodeLeaf,
        withTokens, withCatalog, putLease, removeNamespace])

/-- An accepted seed finds no secret key and no token, and is the security state from then on. -/
theorem securityStateInit_ok {seed : SecurityState} {answer : CouncilResponse}
    (accepted : state.securityStateInit seed = .ok (answer, next))
    : state.security.ageKeypairs = []
      ∧ state.security.apiTokens = []
      ∧ next = state.withSecurity seed := by
  obtain ⟨_, blank, accepted⟩ := bind_eq_ok.mp accepted
  cases accepted
  simp only [refuseWhen, refuseIf_eq_ok, isInitialised, Bool.or_eq_true,
    Bool.not_eq_true', not_or, Bool.not_eq_false, List.isEmpty_iff] at blank
  exact ⟨blank.1.2, blank.2, rfl⟩

-- Entries

/-- A log entry is a request that was answered, or leaves everything but the membership and the
position in the log as it was. -/
theorem step_cases (S : Surroundings) (state : DesiredState) (entry : CouncilEntry)
    : (∃ request answer next,
        entry.payload = .request request
        ∧ ({ state with lastApplied := some entry.logId } : DesiredState).handle S
            ⟨state.lastApplied, some entry.logId⟩ request = .ok (answer, next)
        ∧ state.applyEntry S entry = (answer, next)
        ∧ state.step S entry = next)
      ∨ ∃ membership,
          (∀ request, entry.payload = .request request
            → membership = state.membership
              ∧ ∃ reason, (state.applyEntry S entry).1 = .refused reason)
          ∧ state.step S entry
            = { state with lastApplied := some entry.logId, membership := membership } := by
  cases payload : entry.payload with
  | blank =>
    exact .inr ⟨state.membership, by simp, by simp [step, applyEntry, payload]⟩
  | request request =>
    cases handled : ({ state with lastApplied := some entry.logId } : DesiredState).handle S
        ⟨state.lastApplied, some entry.logId⟩ request with
    | ok answered =>
      exact .inl ⟨request, answered.1, answered.2, rfl, handled,
        by simp [applyEntry, payload, handled], by simp [step, applyEntry, payload, handled]⟩
    | error refused =>
      exact .inr ⟨state.membership, fun _ _ => ⟨rfl, refused, by simp [applyEntry, payload,
          handled]⟩, by simp [step, applyEntry, payload, handled]⟩
  | membership jointConfig nodes =>
    exact .inr ⟨⟨some entry.logId, jointConfig, nodes⟩, by simp,
      by simp [step, applyEntry, payload]⟩

@[simp] theorem run_append (S : Surroundings) (state : DesiredState)
    (first second : List CouncilEntry)
    : state.run S (first ++ second) = (state.run S first).run S second :=
  Runs.run_append first second

/-- An entry keeps what only reads some areas, if the requests that touch them do. -/
theorem step_preserves {S : Surroundings} {Holds : DesiredState → Prop} (reads : List Area)
    (fixed : Area.membership ∉ reads)
    (same : ∀ state next, (∀ area ∈ reads, area.Agrees state next) → Holds state → Holds next)
    {state : DesiredState} (entry : CouncilEntry)
    (touched : ∀ request answer next,
        entry.payload = .request request
        → (∃ area ∈ reads, area ∈ request.touches)
        → ({ state with lastApplied := some entry.logId } : DesiredState).handle S
            ⟨state.lastApplied, some entry.logId⟩ request = .ok (answer, next)
        → Holds next)
    (holds : Holds state)
    : Holds (state.step S entry) := by
  rcases step_cases S state entry with
    ⟨request, answer, next, payload, handled, _, after⟩ | ⟨_, _, after⟩
  · rw [after]
    by_cases touches : ∃ area ∈ reads, area ∈ request.touches
    · exact touched request answer next payload touches handled
    push Not at touches
    refine same state next (fun area listed => ?_) holds
    have agrees := handle_frames request _ handled area (touches area listed)
    cases area <;> exact agrees
  · rw [after]
    refine same state _ (fun area listed => ?_) holds
    cases area <;> first | exact absurd listed fixed | simp

end DesiredState

end Reliaburger
