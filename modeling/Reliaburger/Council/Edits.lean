import Reliaburger.Council.Frame

/-! The apps and the tables about them change by elementary edits: what a request makes of them is a
chain of edits, so that what every edit keeps every request keeps.
-/

namespace Reliaburger

open Checks

-- What a request writes

/-- The apps that a write puts. -/
def SpecWrite.writtenApps : SpecWrite → List (AppId × AppSpec)
  | .appSpec appId spec => [(appId, spec)]
  | _ => []

def SpecWrite.removedApps : SpecWrite → List AppId
  | .appDelete appId => [appId]
  | _ => []

def FencedChange.writtenApps : FencedChange → List (AppId × AppSpec)
  | .appSpec appId spec | .testLeaseAppSpec _ _ appId spec | .gitOpsAppSpec _ appId spec =>
    [(appId, spec)]
  | .other => []

/-- The apps with their specs that a request asks to store; a deployment's are those of its
configuration. -/
def CouncilRequest.writtenApps (state : DesiredState) : CouncilRequest → List (AppId × AppSpec)
  | .spec write => write.writtenApps
  | .gitOpsWrite _ change => change.toList.flatMap (·.writtenApps)
  | .policyFenced _ change _ => change.writtenApps
  | .testLeaseAppSpec _ _ appId written => [(appId, written)]
  | .jobApplyCommit operationId _ =>
    state.taskArrays.deployments[operationId]?.toList.flatMap (fun record =>
      (configToDesiredWrites record.config).flatMap (·.writtenApps))
  | _ => []

def CouncilRequest.removedApps (state : DesiredState) : CouncilRequest → List AppId
  | .spec write => write.removedApps
  | .gitOpsWrite _ change => change.toList.flatMap (·.removedApps)
  | .jobApplyCommit operationId _ =>
    state.taskArrays.deployments[operationId]?.toList.flatMap (fun record =>
      (configToDesiredWrites record.config).flatMap (·.removedApps))
  | .testLeaseAppDelete _ appId => [appId]
  | _ => []

namespace DesiredState

variable {S : Surroundings} {position : ApplyEntryPosition} {state next : DesiredState}
  {answer : CouncilResponse} {writes more : List (AppId × AppSpec)} {removes others : List AppId}

-- Edits

@[simp] def appAreas : List Area := [.apps, .records, .seals, .ageKeypairs]

/-- One elementary change of the apps, their records and their seals. -/
inductive Edit (writes : List (AppId × AppSpec)) (removes : List AppId) (state : DesiredState)
    : DesiredState → Prop
  | elsewhere {next : DesiredState} (same : ∀ area ∈ appAreas, area.Agrees state next)
    : Edit writes removes state next
  | apply (appId : AppId) (spec : AppSpec) (listed : (appId, spec) ∈ writes)
    : Edit writes removes state (state.applyAppSpec appId spec)
  | remove (appId : AppId) (listed : appId ∈ removes)
    : Edit writes removes state (state.withoutApp appId)
  | release (appId : AppId) (spec : AppSpec) (found : state.apps[appId]? = some spec)
    : Edit writes removes state { state with apps := state.apps.insert appId spec.withoutOwner }
  | stop (appId : AppId) (present : appId ∈ state.apps)
    : Edit writes removes state { state with stoppedApps := state.stoppedApps.insert appId }
  | rollout (appId : AppId) (rollouts : AppRollouts) (present : appId ∈ state.apps)
    : Edit writes removes state { state with rollouts := state.rollouts.insert appId rollouts }
  | override (appId : AppId) (spec : AppSpec) (autoscale : AutoscaleSpec) (replicas : Nat)
    (found : state.apps[appId]? = some spec) (scales : spec.autoscale = some autoscale)
    : Edit writes removes state { state with
        autoscaleOverrides := setOverride state.autoscaleOverrides appId.text
          (clampToBounds replicas autoscale) }
  | quota (blocked : List (AppId × QuotaError))
    : Edit writes removes state { state with quotaBlocked := state.notesOfApps blocked }
  | unschedulable (apps : List (AppId × Section))
    : Edit writes removes state { state with unschedulable := state.notesOfApps apps }
  | own (appId : AppId) (spec : AppSpec) (found : state.apps[appId]? = some spec)
    (unclaimed : spec.owner = none)
    : Edit writes removes state { state with
        gitopsOwned := { state.gitopsOwned with apps := state.gitopsOwned.apps.insert appId } }
  | gitops (owned : GitOpsOwnership) (same : owned.apps = state.gitopsOwned.apps)
    : Edit writes removes state { state with gitopsOwned := owned }
  | declare (appId : AppId) (declared : Option AppSpec) (present : appId ∈ state.apps)
    : Edit writes removes state { state with
        declaredApps := DesiredState.declare state.declaredApps appId declared }

/-- Elementary changes one after the other. -/
def Edits (writes : List (AppId × AppSpec)) (removes : List AppId)
    : DesiredState → DesiredState → Prop :=
  Relation.ReflTransGen (Edit writes removes)

namespace Edits

theorem one (edit : Edit writes removes state next) : Edits writes removes state next :=
  Relation.ReflTransGen.single edit

theorem andThen {last : DesiredState} (edits : Edits writes removes state next)
    (edit : Edit writes removes next last)
    : Edits writes removes state last :=
  Relation.ReflTransGen.tail edits edit

theorem append {last : DesiredState} (first : Edits writes removes state next)
    (second : Edits writes removes next last)
    : Edits writes removes state last :=
  Relation.ReflTransGen.trans first second

theorem mono (within : writes ⊆ more) (among : removes ⊆ others)
    (edits : Edits writes removes state next)
    : Edits more others state next := by
  refine Relation.ReflTransGen.mono (fun before after edit => ?_) _ _ edits
  cases edit with
  | apply appId spec listed => exact .apply appId spec (within listed)
  | elsewhere same => exact .elsewhere same
  | remove appId listed => exact .remove appId (among listed)
  | release appId spec found => exact .release appId spec found
  | stop appId present => exact .stop appId present
  | rollout appId rollouts present => exact .rollout appId rollouts present
  | override appId spec autoscale replicas found scales =>
    exact .override appId spec autoscale replicas found scales
  | quota blocked => exact .quota blocked
  | unschedulable apps => exact .unschedulable apps
  | own appId spec found unclaimed => exact .own appId spec found unclaimed
  | gitops owned same => exact .gitops owned same
  | declare appId declared present => exact .declare appId declared present

/-- What every edit keeps, a chain keeps. -/
theorem invariant (Holds : DesiredState → Prop)
    (kept : ∀ before after, Edit writes removes before after → Holds before → Holds after)
    (edits : Edits writes removes state next) (holds : Holds state)
    : Holds next := by
  induction edits with
  | refl => exact holds
  | tail _ edit ih => exact kept _ _ edit ih

end Edits

-- Requests as chains of edits

variable {appId : AppId} {spec : AppSpec} {leaseId : String}

theorem removeApp_edits (removed : state.removeApp appId = .ok (answer, next))
    : Edits writes [appId] state next := by
  obtain ⟨_, _, accepted⟩ := bind_eq_ok.mp removed
  cases accepted
  exact .one (.remove appId (by simp))

theorem removeNamespace_edits (name : String)
    : Edits writes removes state (state.removeNamespace name) :=
  (Edits.one (.gitops { state.gitopsOwned with
    namespaces := state.gitopsOwned.namespaces.erase name } rfl)).andThen
    (.elsewhere (by simp [removeNamespace]))

/-- An accepted app write applies the spec. -/
theorem appSpec_eq_ok (written : state.appSpec S appId spec = .ok (answer, next))
    : next = state.applyAppSpec appId spec := by
  obtain ⟨_, _, rest⟩ := bind_eq_ok.mp written
  obtain ⟨_, _, rest⟩ := bind_eq_ok.mp rest
  obtain ⟨_, _, rest⟩ := bind_eq_ok.mp rest
  obtain ⟨_, _, rest⟩ := bind_eq_ok.mp rest
  obtain ⟨_, _, accepted⟩ := bind_eq_ok.mp rest
  exact (Prod.mk.inj (Except.ok.inj accepted)).2.symm

/-- What an accepted write does is made of elementary changes. -/
theorem specWrite_edits {write : SpecWrite}
    (written : state.specWrite S write = .ok (answer, next))
    : Edits write.writtenApps write.removedApps state next := by
  cases write with
  | appSpec appId spec =>
    rw [appSpec_eq_ok written]
    exact .one (.apply appId spec (by simp [SpecWrite.writtenApps]))
  | appDelete appId =>
    obtain ⟨_, _, removed⟩ := bind_eq_ok.mp written
    exact removeApp_edits removed
  | namespaceSpec name spec =>
    obtain ⟨_, _, accepted⟩ := bind_eq_ok.mp written
    cases accepted
    exact .one (.elsewhere (by simp))
  | namespaceDelete name =>
    obtain ⟨_, _, accepted⟩ := bind_eq_ok.mp written
    cases accepted
    exact removeNamespace_edits name
  | permissionSpec | policySpec =>
    cases written
    exact .one (.elsewhere (by simp))
  | permissionDelete name =>
    cases written
    exact (Edits.one (.gitops { state.gitopsOwned with
      permissions := state.gitopsOwned.permissions.erase name } rfl)).andThen
      (.elsewhere (by simp))
  | policyDelete name =>
    obtain ⟨_, _, accepted⟩ := bind_eq_ok.mp written
    cases accepted
    exact (Edits.one (.gitops { state.gitopsOwned with
      policies := state.gitopsOwned.policies.erase name } rfl)).andThen
      (.elsewhere (by simp))

theorem stageWrites_edits {pending : List SpecWrite}
    (staged : stageWrites S pending state = .ok next)
    : Edits (pending.flatMap (·.writtenApps)) (pending.flatMap (·.removedApps)) state next := by
  induction pending generalizing state with
  | nil =>
    cases staged
    exact .refl
  | cons write rest ih =>
    obtain ⟨⟨_, _⟩, written, after⟩ := bind_eq_ok.mp staged
    rw [List.flatMap_cons, List.flatMap_cons]
    exact ((specWrite_edits written).mono (List.subset_append_left _ _)
      (List.subset_append_left _ _)).append
      ((ih after).mono (List.subset_append_right _ _) (List.subset_append_right _ _))

section

variable {term : Nat} {change : Option SpecWrite}
  (written : state.gitOpsWrite S position term change = .ok (answer, next))
include written

/-- An accepted GitOps write is a declarative write without an owner, and then owned. -/
theorem gitOpsWrite_eq_ok
    : ∃ write middle,
        change = some write
        ∧ claimedApp write = none
        ∧ state.specWrite S write = .ok (answer, middle)
        ∧ next = { middle with gitopsOwned := ownWritten middle.gitopsOwned write } := by
  obtain ⟨_, _, rest⟩ := bind_eq_ok.mp written
  cases change with
  | none => cases rest
  | some change =>
    dsimp only at rest
    split at rest
    · cases rest
    rename_i unclaimed
    split at rest
    · cases rest
    obtain ⟨⟨_, middle⟩, inner, done⟩ := bind_eq_ok.mp rest
    cases pure_eq_ok.mp done
    exact ⟨change, middle, rfl, unclaimed, inner, rfl⟩

theorem gitOpsWrite_edits
    : Edits (change.toList.flatMap (·.writtenApps)) (change.toList.flatMap (·.removedApps))
        state next := by
  obtain ⟨write, _, rfl, unclaimed, inner, rfl⟩ := gitOpsWrite_eq_ok written
  simp only [Option.toList_some, List.flatMap_cons, List.flatMap_nil, List.append_nil]
  refine (specWrite_edits inner).andThen ?_
  cases write with
  | appSpec appId spec =>
    rw [appSpec_eq_ok inner]
    exact .own appId spec (by simp [applyAppSpec]) (by simpa [claimedApp] using unclaimed)
  | _ => exact .gitops _ rfl

end

theorem findLease_eq_ok {lease : TestLease} (found : state.findLease leaseId = .ok lease)
    : state.testLeases[leaseId]? = some lease := by
  unfold findLease at found
  split at found
  · next held => rw [held, Except.ok.inj found]
  · cases found

section

variable {observedAtUnixMs : Nat}
  (written : state.testLeaseAppSpec S leaseId observedAtUnixMs appId spec = .ok (answer, next))
include written

/-- A leased app write stores the app in its active lease and applies the spec. -/
theorem testLeaseAppSpec_eq_ok
    : ∃ lease,
        state.testLeases[leaseId]? = some lease
        ∧ lease.isActiveAt observedAtUnixMs = true
        ∧ appId.ns = lease.ns
        ∧ next = (state.putLease leaseId { lease with
            resources := lease.resources.insert (.app appId) }).applyAppSpec appId spec := by
  obtain ⟨_, _, rest⟩ := bind_eq_ok.mp written
  obtain ⟨lease, found, rest⟩ := bind_eq_ok.mp rest
  obtain ⟨_, _, rest⟩ := bind_eq_ok.mp rest
  obtain ⟨_, active, rest⟩ := bind_eq_ok.mp rest
  obtain ⟨_, inside, rest⟩ := bind_eq_ok.mp rest
  obtain ⟨_, _, rest⟩ := bind_eq_ok.mp rest
  obtain ⟨_, _, rest⟩ := bind_eq_ok.mp rest
  obtain ⟨_, _, rest⟩ := bind_eq_ok.mp rest
  obtain ⟨_, _, accepted⟩ := bind_eq_ok.mp rest
  rw [refuseWhen, refuseIf_eq_ok, Bool.not_eq_false] at active
  rw [refuseWhen, refuseIf_eq_ok, not_not] at inside
  exact ⟨lease, findLease_eq_ok found, active, inside,
    (Prod.mk.inj (Except.ok.inj accepted)).2.symm⟩

theorem testLeaseAppSpec_edits
    : Edits [(appId, spec)] removes state next := by
  obtain ⟨lease, _, _, _, rfl⟩ := testLeaseAppSpec_eq_ok written
  have leased : Edit [(appId, spec)] removes state (state.putLease leaseId { lease with
      resources := lease.resources.insert (.app appId) }) :=
    .elsewhere (by simp [putLease])
  exact (Edits.one leased).andThen (.apply appId spec (by simp))

end

theorem fencedChange_edits {change : FencedChange} (fenced : change.app = some appId)
    (written : state.fencedChange S position change = .ok (answer, next))
    : Edits change.writtenApps [] state next ∧ appId ∈ next.apps := by
  cases change with
  | appSpec otherId spec =>
    cases fenced
    obtain rfl := appSpec_eq_ok written
    exact ⟨.one (.apply _ spec (by simp [FencedChange.writtenApps])), by simp [applyAppSpec]⟩
  | testLeaseAppSpec leaseId observedAtUnixMs otherId spec =>
    cases fenced
    refine ⟨testLeaseAppSpec_edits written, ?_⟩
    obtain ⟨_, _, _, _, rfl⟩ := testLeaseAppSpec_eq_ok written
    simp [applyAppSpec]
  | gitOpsAppSpec term otherId spec =>
    cases fenced
    replace written : state.gitOpsWrite S position term (some (.appSpec appId spec))
        = .ok (answer, next) := written
    refine ⟨gitOpsWrite_edits written, ?_⟩
    obtain ⟨_, _, same, _, inner, rfl⟩ := gitOpsWrite_eq_ok written
    cases same
    obtain rfl := appSpec_eq_ok inner
    simp [applyAppSpec]
  | other => cases fenced

theorem policyFenced_edits {generation : Nat} {change : FencedChange} {declared : Option AppSpec}
    (written : state.policyFenced S position generation change declared = .ok (answer, next))
    : Edits change.writtenApps [] state next := by
  unfold policyFenced at written
  split at written
  · cases written
  rename_i appId fenced
  split at written
  · cases pure_eq_ok.mp written
    exact .refl
  obtain ⟨⟨_, _⟩, inner, done⟩ := bind_eq_ok.mp written
  cases pure_eq_ok.mp done
  obtain ⟨edits, present⟩ := fencedChange_edits fenced inner
  exact edits.andThen (.declare appId declared present)

theorem jobApplyCommit_edits {operationId : String} {nowEpochSecs : Nat}
    (committed : state.jobApplyCommit S operationId nowEpochSecs = .ok (answer, next))
    : Edits ((CouncilRequest.jobApplyCommit operationId nowEpochSecs).writtenApps state)
        ((CouncilRequest.jobApplyCommit operationId nowEpochSecs).removedApps state)
        state next := by
  unfold jobApplyCommit at committed
  split at committed
  · cases committed
  rename_i record found
  obtain ⟨_, _, rest⟩ := bind_eq_ok.mp committed
  split at rest
  · cases rest
    exact .refl
  obtain ⟨_, _, rest⟩ := bind_eq_ok.mp rest
  obtain ⟨⟨_, staged⟩, prepared, rest⟩ := bind_eq_ok.mp rest
  dsimp only at rest
  split at rest
  · cases rest
  obtain ⟨_, written, accepted⟩ := bind_eq_ok.mp rest
  cases accepted
  have jobs : ∀ area ∈ appAreas, area.Agrees state staged := fun area listed =>
    frames_taskArray _ _ prepared area (by
      intro jobs
      simp only [List.mem_singleton] at jobs
      simp [jobs] at listed)
  refine (Edits.one (.elsewhere jobs)).append ((stageWrites_edits written).mono ?_ ?_)
  · simp [CouncilRequest.writtenApps, found]
  · simp [CouncilRequest.removedApps, found]

/-- The leader reports only on an app whose current version it names. -/
theorem present_of_version {fingerprint text : String}
    (current : refuseWhen (state.apps[appId]?.map S.rolloutFingerprint ≠ some fingerprint) text
        = .ok ())
    : appId ∈ state.apps := by
  rw [refuseWhen, refuseIf_eq_ok, not_not, Option.map_eq_some_iff] at current
  obtain ⟨spec, found, _⟩ := current
  exact BTreeMap.mem_iff.mpr ⟨spec, found⟩

/-- A request that neither seeds the security state nor changes secret keys is a chain of edits
that apply only what it asks to store and remove only what it asks to delete. -/
theorem handle_edits {request : CouncilRequest} (keysKept : Area.ageKeypairs ∉ request.touches)
    (handled : state.handle S position request = .ok (answer, next))
    : Edits (request.writtenApps state) (request.removedApps state) state next := by
  by_cases elsewhere : ∀ area ∈ appAreas, area ∉ request.touches
  · exact .one (.elsewhere fun area listed =>
      handle_frames request _ handled area (elsewhere area listed))
  cases request with
  | spec write => exact specWrite_edits handled
  | gitOpsWrite term change => exact gitOpsWrite_edits handled
  | policyFenced generation change declared => exact policyFenced_edits handled
  | jobApplyCommit operationId now => exact jobApplyCommit_edits handled
  | testLeaseAppSpec leaseId observedAt appId spec => exact testLeaseAppSpec_edits handled
  | appStop appId =>
    obtain ⟨_, _, rest⟩ := bind_eq_ok.mp handled
    obtain ⟨_, present, accepted⟩ := bind_eq_ok.mp rest
    cases accepted
    rw [refuseWhen, refuseIf_eq_ok, not_not] at present
    exact .one (.stop appId present)
  | appRelease appId =>
    simp only [handle, appRelease] at handled
    split at handled
    · cases handled
    rename_i spec found
    obtain ⟨_, _, accepted⟩ := bind_eq_ok.mp handled
    cases accepted
    exact .one (.release appId spec found)
  | autoscaleOverride appId replicas reason =>
    simp only [handle, autoscaleOverride] at handled
    split at handled
    · cases handled
    rename_i autoscale found
    cases handled
    obtain ⟨spec, found, scales⟩ := Option.bind_eq_some_iff.mp found
    exact .one (.override appId spec autoscale replicas found scales)
  | rolloutFailed appId failure =>
    obtain ⟨_, current, rest⟩ := bind_eq_ok.mp handled
    dsimp only at rest
    split at rest <;> cases rest <;> exact .one (.rollout appId _ (present_of_version current))
  | rolloutReleased appId spec =>
    obtain ⟨_, current, accepted⟩ := bind_eq_ok.mp handled
    cases accepted
    exact .one (.rollout appId _ (present_of_version current))
  | quotaBlocked blocked =>
    cases handled
    exact .one (.quota blocked)
  | unschedulable apps =>
    cases handled
    exact .one (.unschedulable apps)
  | testLeaseAppDelete leaseId appId =>
    obtain ⟨_, _, removed⟩ := bind_eq_ok.mp handled
    exact removeApp_edits removed
  | testLeaseNamespaceDelete leaseId name =>
    obtain ⟨_, _, accepted⟩ := bind_eq_ok.mp handled
    cases accepted
    exact removeNamespace_edits name
  | securityStateInit | rotateSecretKey | finalizeSecretRotation =>
    simp [CouncilRequest.touches] at keysKept
  | _ => simp [CouncilRequest.touches] at elsewhere

end DesiredState

end Reliaburger
