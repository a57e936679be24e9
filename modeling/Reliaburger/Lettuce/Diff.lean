import Reliaburger.Council.Edits

/-! The difference between what a repository declares and what the council's state holds, and the
writes that GitOps makes of it. What matches already is adopted: it is written as it stands, so that
GitOps owns it from then on.
-/

namespace Reliaburger

open BTreeMap

-- Resources

inductive ChangePayload where
  | app (spec : AppSpec)
  | namespaced (spec : Section)
  | permission (spec : Section)
  | policy (spec : Section)
  /-- Jobs and builds, which are no desired state. -/
  | generic
deriving DecidableEq

inductive ResourceChange where
  | add (resourceId : String) (spec : ChangePayload)
  | update (resourceId : String) (spec : ChangePayload) (replicasChanged : Bool)
  /-- A resource that matches git already but that GitOps did not write. -/
  | adopt (resourceId : String) (spec : ChangePayload)
  | remove (resourceId : String)
deriving DecidableEq

def appResourceId (appId : AppId) : String :=
  "app." ++ appId.text

def stripPrefix (text start : String) : Option String :=
  if startsWith text start then some (String.ofList (text.toList.drop start.length)) else none

def parseAppResourceId (resourceId : String) : Option AppId := do
  let (ns, name) ← (stripPrefix resourceId "app.").bind splitKey
  if ns.isEmpty || name.isEmpty then none else some ⟨name, ns⟩

@[simp] theorem stripPrefix_append (start rest : String)
    : stripPrefix (start ++ rest) start = some rest := by
  simp [stripPrefix, startsWith, ← String.length_toList]

-- Differences

/-- `image` as git names it when it is git's image bound to a digest. -/
def unbind (image git : Option String) : Option String :=
  match git with
  | none => image
  | some git =>
    if '@' ∉ git.toList
        ∧ (image.bind (fun image => splitOnce '@' image.toList)).any (·.1 == git.toList) then
      some git
    else image

def asGitWroteIt (git current : AppSpec) : AppSpec :=
  { current with
    image := unbind current.image git.image
    init := List.zipWith unbind current.init git.init ++ current.init.drop git.init.length }

def replicasDiffer (first second : AppSpec) : Bool :=
  first.replicas ≠ second.replicas

def nonReplicaFieldsDiffer (first second : AppSpec) : Bool :=
  { first with replicas := second.replicas } ≠ second

structure KindDiff where
  writes : List ResourceChange
  removals : List ResourceChange

namespace DesiredState

variable (state : DesiredState)

/-- What git's spec of an app asks for. An app that a controller owns is left alone. -/
def diffApp (appId : AppId) (gitSpec : AppSpec) : Option ResourceChange :=
  match state.apps[appId]? with
  | none => some (.add (appResourceId appId) (.app gitSpec))
  | some effectiveSpec =>
    -- Fields that a policy filled in are no drift: git is compared with the declared spec.
    let asGit := asGitWroteIt gitSpec (state.declaredApps[appId]?.getD effectiveSpec)
    let replicasChanged := replicasDiffer gitSpec asGit
    if effectiveSpec.owner.isSome then none
    else if replicasChanged || nonReplicaFieldsDiffer gitSpec asGit then
      some (.update (appResourceId appId) (.app gitSpec) replicasChanged)
    else if appId ∈ state.gitopsOwned.apps then none
    else some (.adopt (appResourceId appId) (.app effectiveSpec))

def diffApps (gitApps : List (AppId × AppSpec)) : KindDiff where
  writes := gitApps.filterMap (fun entry => state.diffApp entry.1 entry.2)
  removals :=
    (state.apps.toList.filter (fun entry =>
      entry.1 ∈ state.gitopsOwned.apps && gitApps.all (·.1 != entry.1)
        && !validTestNamespace entry.1.ns && entry.2.owner.isNone)).map
      (fun entry => .remove (appResourceId entry.1))

end DesiredState

/-- Differences of a kind that is keyed by name. -/
def diffNamed (kind : String) (git current : BTreeMap String Section) (owned : BTreeSet String)
    (payload : Section → ChangePayload)
    : KindDiff where
  writes := git.toList.filterMap (fun entry =>
    match current[entry.1]? with
    | none => some (.add (kind ++ entry.1) (payload entry.2))
    | some spec =>
      if spec ≠ entry.2 then some (.update (kind ++ entry.1) (payload entry.2) false)
      else if entry.1 ∈ owned then none
      else some (.adopt (kind ++ entry.1) (payload spec)))
  removals :=
    (current.toList.filter (fun entry => entry.1 ∈ owned && !git.contains entry.1)).map
      (fun entry => .remove (kind ++ entry.1))

def computeDiff (git : Config) (state : DesiredState) : List ResourceChange :=
  let outside (sections : BTreeMap String Section) :=
    sections.filter (fun name _ => !validTestNamespace name)
  let apps := state.diffApps ((git.app.toList.map (fun entry =>
    (⟨entry.1, entry.2.namespace⟩, entry.2))).filter (fun entry => !validTestNamespace entry.1.ns))
  let namespaces := diffNamed "namespace." (outside git.namespaces) (outside state.namespaces)
    state.gitopsOwned.namespaces .namespaced
  let permissions := diffNamed "permission." git.permission state.permissions
    state.gitopsOwned.permissions .permission
  let policies := diffNamed "policy." git.policy state.policies state.gitopsOwned.policies .policy
  namespaces.writes ++ permissions.writes ++ policies.writes ++ policies.removals
    ++ apps.writes ++ apps.removals ++ permissions.removals ++ namespaces.removals

-- Requests

def payloadToRequest (resourceId : String) : ChangePayload → Option SpecWrite
  | .app spec => (parseAppResourceId resourceId).map (.appSpec · spec)
  | .namespaced spec => (stripPrefix resourceId "namespace.").map (.namespaceSpec · spec)
  | .permission spec => (stripPrefix resourceId "permission.").map (.permissionSpec · spec)
  | .policy spec => (stripPrefix resourceId "policy.").map (.policySpec · spec)
  | .generic => none

def removeToRequest (resourceId : String) : Option SpecWrite :=
  (parseAppResourceId resourceId).map .appDelete
  <|> (stripPrefix resourceId "namespace.").map .namespaceDelete
  <|> (stripPrefix resourceId "permission.").map .permissionDelete
  <|> (stripPrefix resourceId "policy.").map .policyDelete

def changeToRequest : ResourceChange → Option SpecWrite
  | .add resourceId spec | .adopt resourceId spec | .update resourceId spec _ =>
    payloadToRequest resourceId spec
  | .remove resourceId => removeToRequest resourceId

-- Adoption

namespace DesiredState

/-- The write asks for what the state holds, or for some app's spec that names no owner. -/
def Matches (state : DesiredState) : SpecWrite → Prop
  | .appSpec _ spec => spec.owner = none
  | .namespaceSpec name spec => state.namespaces[name]? = some spec
  | .permissionSpec name spec => state.permissions[name]? = some spec
  | .policySpec name spec => state.policies[name]? = some spec
  | _ => False

variable {state : DesiredState} {git : Config} {resourceId : String} {payload : ChangePayload}
  {write : SpecWrite}

theorem adopt_of_diffApp {appId : AppId} {gitSpec : AppSpec}
    (adopts : state.diffApp appId gitSpec = some (.adopt resourceId payload))
    : ∃ spec, payload = .app spec ∧ spec.owner = none := by
  unfold diffApp at adopts
  split at adopts
  · cases adopts
  next spec found =>
    simp only [Option.ite_none_left_eq_some] at adopts
    obtain ⟨unclaimed, adopts⟩ := adopts
    split at adopts
    · cases adopts
    split at adopts
    · cases adopts
    · cases adopts
      exact ⟨spec, rfl, by simpa using unclaimed⟩

theorem adopt_of_diffNamed {kind : String} {named current : BTreeMap String Section}
    {owned : BTreeSet String} {wrap : Section → ChangePayload}
    (adopts : .adopt resourceId payload ∈ (diffNamed kind named current owned wrap).writes)
    : ∃ name spec, resourceId = kind ++ name ∧ payload = wrap spec
        ∧ current[name]? = some spec := by
  obtain ⟨⟨name, gitSpec⟩, _, adopts⟩ := List.mem_filterMap.mp adopts
  dsimp only at adopts
  split at adopts
  · cases adopts
  next spec found =>
    split at adopts
    · cases adopts
    split at adopts
    · cases adopts
    · cases adopts
      exact ⟨name, spec, rfl, rfl, found⟩

/-- What is adopted is written as it stands. An app's identity may be read back as another's where
its namespace holds a slash. -/
theorem matches_of_adopt (listed : .adopt resourceId payload ∈ computeDiff git state)
    (asked : changeToRequest (.adopt resourceId payload) = some write)
    : state.Matches write := by
  simp only [computeDiff, List.mem_append] at listed
  rcases listed with
    ((((((namespaces | permissions) | policies) | removed) | apps) | removed) | removed) | removed
  · obtain ⟨name, spec, rfl, rfl, found⟩ := adopt_of_diffNamed namespaces
    rw [changeToRequest, payloadToRequest, stripPrefix_append] at asked
    cases asked
    rw [get_filter, Option.filter_eq_some_iff] at found
    exact found.1
  · obtain ⟨name, spec, rfl, rfl, found⟩ := adopt_of_diffNamed permissions
    rw [changeToRequest, payloadToRequest, stripPrefix_append] at asked
    cases asked
    exact found
  · obtain ⟨name, spec, rfl, rfl, found⟩ := adopt_of_diffNamed policies
    rw [changeToRequest, payloadToRequest, stripPrefix_append] at asked
    cases asked
    exact found
  · simp [diffNamed] at removed
  · obtain ⟨_, _, adopts⟩ := List.mem_filterMap.mp apps
    obtain ⟨spec, rfl, unclaimed⟩ := adopt_of_diffApp adopts
    obtain ⟨appId, parsed, rfl⟩ := Option.map_eq_some_iff.mp asked
    exact unclaimed
  · simp [diffApps] at removed
  · simp [diffNamed] at removed
  · simp [diffNamed] at removed

variable {S : Surroundings} {appId : AppId} {spec : AppSpec}

/-- Applying the spec would change nothing that runs: the app is stored with it and not stopped, and
its override is inside the bounds. -/
structure StandsAs (state : DesiredState) (appId : AppId) (spec : AppSpec) : Prop where
  stored : state.apps[appId]? = some spec
  running : appId ∉ state.stoppedApps
  scaled
    : ∀ row ∈ state.autoscaleOverrides,
        row.1 = appId.text
        → ∃ autoscale, spec.autoscale = some autoscale ∧ clampToBounds row.2 autoscale = row.2

/-- The overrides of a stored spec stay as they are just when the app's own is inside its bounds;
by cases on whether the spec has any. -/
theorem overridesAfter_eq_iff (stored : state.apps[appId]? = some spec)
    : state.overridesAfter appId spec = state.autoscaleOverrides
      ↔ ∀ row ∈ state.autoscaleOverrides,
          row.1 = appId.text
          → ∃ autoscale,
              spec.autoscale = some autoscale ∧ clampToBounds row.2 autoscale = row.2 := by
  simp only [overridesAfter, stored, Option.any_some, bne_self_eq_false, Bool.false_eq_true,
    if_false]
  cases scales : spec.autoscale with
  | none => simp [List.filter_eq_self]
  | some autoscale =>
    dsimp only
    nth_rewrite 2 [← List.map_id state.autoscaleOverrides]
    rw [List.map_inj_left]
    refine forall₂_congr fun row listed => ?_
    by_cases own : row.1 = appId.text
    · simp [own, Prod.ext_iff]
    · simp [own]

/-- Applying a spec keeps everything that runs just when it stands already. -/
theorem applyAppSpec_same_iff
    : ((state.applyAppSpec appId spec).apps = state.apps
        ∧ (state.applyAppSpec appId spec).stoppedApps = state.stoppedApps
        ∧ (state.applyAppSpec appId spec).autoscaleOverrides = state.autoscaleOverrides)
      ↔ state.StandsAs appId spec := by
  constructor
  · rintro ⟨apps, stopped, overrides⟩
    have stored : state.apps[appId]? = some spec := by
      rw [← apps]
      exact get_insert_self _ _ _
    refine ⟨stored, fun listed => ?_, (overridesAfter_eq_iff stored).mp overrides⟩
    rw [← stopped] at listed
    exact (BTreeSet.mem_erase.mp listed).1 rfl
  · intro stands
    refine ⟨insert_eq_self stands.stored, Std.ExtTreeSet.ext_mem fun other => ?_,
      (overridesAfter_eq_iff stands.stored).mpr stands.scaled⟩
    refine BTreeSet.mem_erase.trans (and_iff_right_of_imp ?_)
    rintro listed rfl
    exact stands.running listed

theorem applyAppSpec_of_standsAs (unclaimed : spec.owner = none)
    (stands : state.StandsAs appId spec)
    : state.applyAppSpec appId spec
      = { state with security := state.security.recordSecretSeals appId spec } := by
  obtain ⟨apps, stopped, overrides⟩ := applyAppSpec_same_iff.mpr stands
  simp only [applyAppSpec] at apps stopped overrides ⊢
  simp [apps, stopped, overrides, stands.stored, unclaimed]

/-- The log's entry of a GitOps write, in its own term. -/
def gitOpsEntry (logId : LogId) (write : SpecWrite) : CouncilEntry :=
  ⟨logId, .request (.gitOpsWrite logId.term (some write))⟩

/-- The entry is refused and changes nothing, or it changes the resource's owner, the seals of an
app's values and the count of policy writes at most. -/
def ChangesOwnerOnly (S : Surroundings) (state : DesiredState) (logId : LogId)
    (write : SpecWrite)
    : Prop :=
  ((∃ reason, (state.applyEntry S (gitOpsEntry logId write)).1 = .refused reason)
    ∧ state.step S (gitOpsEntry logId write) = { state with lastApplied := some logId })
  ∨ ∃ generation seals,
      state.step S (gitOpsEntry logId write) = { state with
        lastApplied := some logId
        gitopsOwned := ownWritten state.gitopsOwned write
        policyGeneration := generation
        security := { state.security with secretSeals := seals } }

/-- An accepted write of a named section that the state holds changes the policies' generation at
most. -/
theorem specWrite_same {answer : CouncilResponse} {next : DesiredState}
    (written : state.specWrite S write = .ok (answer, next)) (held : state.Matches write)
    (named : ∀ appId spec, write ≠ .appSpec appId spec)
    : ∃ generation, next = { state with policyGeneration := generation } := by
  cases write with
  | appSpec appId spec => exact absurd rfl (named appId spec)
  | namespaceSpec name spec =>
    obtain ⟨_, _, accepted⟩ := Checks.bind_eq_ok.mp written
    cases accepted
    rw [insert_eq_self held]
    exact ⟨_, rfl⟩
  | permissionSpec name spec | policySpec name spec =>
    cases written
    rw [insert_eq_self held]
    exact ⟨_, rfl⟩
  | _ => exact held.elim

/-- The state takes no such spec of the app. -/
def RefusesApp (S : Surroundings) (state : DesiredState) (appId : AppId) (spec : AppSpec)
    : Prop :=
  Machine.jobIdentityReserved state.taskArrays appId.ns appId.name = true
  ∨ state.deploymentOwns appId = true
  ∨ validTestNamespace appId.ns = true
  ∨ authoriseImageReferences (spec.imageReferences.filterMap S.imageRepository) none ≠ .ok ()
  ∨ state.ownerConflict appId spec ≠ none

theorem appSpec_of_refuses (refuses : state.RefusesApp S appId spec)
    : ∃ refusal, state.appSpec S appId spec = .error refusal := by
  cases answered : state.appSpec S appId spec with
  | error refusal => exact ⟨refusal, rfl⟩
  | ok outcome =>
    exfalso
    obtain ⟨_, unreserved, rest⟩ := Checks.bind_eq_ok.mp answered
    obtain ⟨_, unowned, rest⟩ := Checks.bind_eq_ok.mp rest
    obtain ⟨_, unleased, rest⟩ := Checks.bind_eq_ok.mp rest
    obtain ⟨_, authorised, rest⟩ := Checks.bind_eq_ok.mp rest
    obtain ⟨_, owner, _⟩ := Checks.bind_eq_ok.mp rest
    rcases refuses with reserved | owned | leased | foreign | conflict
    · exact Checks.refuseIf_eq_ok.mp unreserved reserved
    · exact Checks.refuseIf_eq_ok.mp unowned owned
    · exact Checks.refuseIf_eq_ok.mp unleased leased
    · cases checked : authoriseImageReferences
        (spec.imageReferences.filterMap S.imageRepository) none with
      | ok => exact foreign checked
      | error => simp [checked, Except.mapError] at authorised
    · unfold checkOwner at owner
      split at owner
      · cases owner
      · exact absurd ‹_› conflict

theorem appSpec_of_accepts (accepts : ¬ state.RefusesApp S appId spec)
    : state.appSpec S appId spec = .ok (.applied, state.applyAppSpec appId spec) := by
  simp only [RefusesApp, not_or, not_not] at accepts
  obtain ⟨unreserved, unowned, unleased, authorised, owner⟩ := accepts
  simp [appSpec, refuseWhen, Checks.refuseIf, unreserved, unowned, unleased, authorised,
    checkOwner, owner, accept, Except.mapError, bind, Except.bind]

/-- The entry of a write that neither claims nor deletes anything does what the write does, and
GitOps owns the resource from then on. -/
theorem gitOpsEntry_of_ok {logId : LogId} {answer : CouncilResponse} {next : DesiredState}
    (unclaimed : claimedApp write = none) (kept : state.unownedDelete write = none)
    (written : ({ state with lastApplied := some logId } : DesiredState).specWrite S write
      = .ok (answer, next))
    : state.step S (gitOpsEntry logId write)
      = { next with gitopsOwned := ownWritten next.gitopsOwned write } := by
  have undeleted : ({ state with lastApplied := some logId } : DesiredState).unownedDelete write
      = none := by
    cases write <;> exact kept
  simp [step, applyEntry, gitOpsEntry, handle, gitOpsWrite, refuseWhen, Checks.refuseIf,
    unclaimed, undeleted, written, bind, Except.bind, pure, Except.pure]

theorem gitOpsEntry_of_error {logId : LogId} {refusal : Refusal}
    (refused : ({ state with lastApplied := some logId } : DesiredState).specWrite S write
      = .error refusal)
    : (∃ reason, (state.applyEntry S (gitOpsEntry logId write)).1 = .refused reason)
      ∧ state.step S (gitOpsEntry logId write) = { state with lastApplied := some logId } := by
  rcases step_cases S state (gitOpsEntry logId write) with
    ⟨_, _, _, ⟨⟩, handled, _, _⟩ | ⟨_, answered, after⟩
  · replace handled : gitOpsWrite S _ _ logId.term (some write) = _ := handled
    obtain ⟨_, _, ⟨⟩, _, written, _⟩ := gitOpsWrite_eq_ok handled
    cases refused.symm.trans written
  · obtain ⟨rfl, reason⟩ := answered _ rfl
    exact ⟨reason, after⟩

/-- Whatever GitOps adopts goes on as it was exactly if it is no app, or an app that the state takes
no spec of, or one that stands as it is written. -/
theorem adoption_changes_owner_only_iff (S : Surroundings) (state : DesiredState) (git : Config)
    (logId : LogId) (resourceId : String) (payload : ChangePayload) (write : SpecWrite)
    (listed : .adopt resourceId payload ∈ computeDiff git state)
    (asked : changeToRequest (.adopt resourceId payload) = some write)
    : ChangesOwnerOnly S state logId write
      ↔ ∀ appId spec, write = .appSpec appId spec
          → state.RefusesApp S appId spec ∨ state.StandsAs appId spec := by
  have held := matches_of_adopt listed asked
  by_cases named : ∀ appId spec, write ≠ .appSpec appId spec
  · refine iff_of_true ?_ fun appId spec same => absurd same (named appId spec)
    cases written : ({ state with lastApplied := some logId } : DesiredState).specWrite S write with
    | error refusal => exact .inl (gitOpsEntry_of_error written)
    | ok outcome =>
      obtain ⟨generation, same⟩ := specWrite_same written (by cases write <;> exact held) named
      refine .inr ⟨generation, state.security.secretSeals, ?_⟩
      rw [gitOpsEntry_of_ok (by cases write <;> first | rfl | exact absurd rfl (named _ _))
        (by cases write <;> first | rfl | exact held.elim) written, same]
  push Not at named
  obtain ⟨appId, spec, rfl⟩ := named
  have unclaimed : spec.owner = none := held
  simp only [SpecWrite.appSpec.injEq, and_imp, forall_eq', forall_apply_eq_imp_iff]
  by_cases refuses : state.RefusesApp S appId spec
  · obtain ⟨_, refused⟩ := @appSpec_of_refuses { state with lastApplied := some logId } S appId spec
      refuses
    exact iff_of_true (.inl (gitOpsEntry_of_error refused)) (.inl refuses)
  have after : state.step S (gitOpsEntry logId (.appSpec appId spec)) = _ :=
    gitOpsEntry_of_ok (by simp [claimedApp, unclaimed]) rfl
      (@appSpec_of_accepts { state with lastApplied := some logId } S appId spec refuses)
  rw [or_iff_right refuses]
  constructor
  · intro only
    refine applyAppSpec_same_iff.mp ?_
    have same : (state.step S (gitOpsEntry logId (.appSpec appId spec))).apps = state.apps
        ∧ (state.step S (gitOpsEntry logId (.appSpec appId spec))).stoppedApps = state.stoppedApps
        ∧ (state.step S (gitOpsEntry logId (.appSpec appId spec))).autoscaleOverrides
          = state.autoscaleOverrides := by
      rcases only with ⟨_, same⟩ | ⟨_, _, same⟩
      · simp [same]
      · simp [same]
    rw [after] at same
    exact same
  · intro stands
    refine .inr ⟨state.policyGeneration,
      (state.security.recordSecretSeals appId spec).secretSeals, ?_⟩
    rw [after, @applyAppSpec_of_standsAs { state with lastApplied := some logId } appId spec
      unclaimed ⟨stands.stored, stands.running, stands.scaled⟩]
    rfl

def webOnly : AppId := ⟨"web", "default"⟩

def startedWeb : List CouncilEntry := requestEntries 1 [.spec (.appSpec webOnly {})]

/-- A repository that declares the app. -/
def declaresWeb : Config := { app := (∅ : BTreeMap String AppSpec).insert "web" {} }

/-- An app that was stopped runs again once GitOps adopts it. -/
theorem adopted_app_starts_again
    : ¬∀ (S : Surroundings) (entries : List CouncilEntry) (git : Config) (logId : LogId)
        (resourceId : String) (payload : ChangePayload) (write : SpecWrite),
        .adopt resourceId payload ∈ computeDiff git (run S {} entries)
        → changeToRequest (.adopt resourceId payload) = some write
        → (∃ reason,
            ((run S {} entries).applyEntry S (gitOpsEntry logId write)).1 = .refused reason)
          ∨ ((run S {} entries).step S (gitOpsEntry logId write)).stoppedApps
            = (run S {} entries).stoppedApps := by
  intro kept
  rcases kept plainSurroundings (startedWeb ++ requestEntries 2 [.appStop webOnly]) declaresWeb
    ⟨1, 3⟩ (appResourceId webOnly) (.app {}) (.appSpec webOnly {}) (by decide +kernel) rfl with
    ⟨_, refused⟩ | same
  · have accepted : ((run plainSurroundings {} (startedWeb ++ requestEntries 2
        [.appStop webOnly])).applyEntry plainSurroundings
          (gitOpsEntry ⟨1, 3⟩ (.appSpec webOnly {}))).1 = .applied := by
      decide +kernel
    cases refused.symm.trans accepted
  · revert same
    decide +kernel

def scaledWeb : AppSpec := { image := some "web:1", autoscale := some ⟨1, 5, "cpu"⟩ }

/-- An app that was scaled up to three replicas, another that is stopped, and their namespace. -/
def scaledUp : DesiredState :=
  run plainSurroundings {} (requestEntries 1
    [.spec (.namespaceSpec "default" "cpu = \"4\""), .spec (.appSpec webOnly scaledWeb),
      .spec (.appSpec ⟨"api", "default"⟩ {}), .appStop ⟨"api", "default"⟩,
      .autoscaleOverride webOnly 3 "load"])

/-- A repository that declares the scaled app and the namespace. -/
def declaresScaled : Config :=
  { app := (∅ : BTreeMap String AppSpec).insert "web" scaledWeb
    namespaces := (∅ : BTreeMap String Section).insert "default" "cpu = \"4\"" }

/-- The stopped app of the repository belongs to a deployment that has not settled. -/
def deployingWeb : DesiredState :=
  run plainSurroundings {} (startedWeb ++ requestEntries 2 [.appStop webOnly,
    .taskArray (.deployBegin "0123456789abcdef0123456789abcdef" declaresWeb 0)])

/-- The scaled app and its namespace are adopted as they run, and the stopped app is not while a
deployment owns it. -/
theorem running_app_adopted
    : (ChangesOwnerOnly plainSurroundings scaledUp ⟨1, 6⟩ (.appSpec webOnly scaledWeb)
        ∧ scaledUp.autoscaleOverrides = [("default/web", 3)]
        ∧ ⟨"api", "default"⟩ ∈ scaledUp.stoppedApps)
      ∧ ChangesOwnerOnly plainSurroundings scaledUp ⟨1, 6⟩
          (.namespaceSpec "default" "cpu = \"4\"")
      ∧ ChangesOwnerOnly plainSurroundings deployingWeb ⟨1, 4⟩ (.appSpec webOnly {})
        ∧ webOnly ∈ deployingWeb.stoppedApps := by
  refine ⟨⟨?_, by decide +kernel, by decide +kernel⟩, ?_, ?_, by decide +kernel⟩
  · refine (adoption_changes_owner_only_iff plainSurroundings scaledUp declaresScaled ⟨1, 6⟩
      (appResourceId webOnly) (.app scaledWeb) _ (by decide +kernel) rfl).mpr ?_
    rintro _ _ ⟨⟩
    refine .inr ⟨by decide +kernel, by decide +kernel, fun row listed _ => ⟨_, rfl, ?_⟩⟩
    rw [show scaledUp.autoscaleOverrides = [("default/web", 3)] by decide +kernel,
      List.mem_singleton] at listed
    rw [listed]
    rfl
  · refine (adoption_changes_owner_only_iff plainSurroundings scaledUp declaresScaled ⟨1, 6⟩
      "namespace.default" (.namespaced "cpu = \"4\"") _ (by decide +kernel) rfl).mpr ?_
    rintro _ _ ⟨⟩
  · refine (adoption_changes_owner_only_iff plainSurroundings deployingWeb declaresWeb ⟨1, 4⟩
      (appResourceId webOnly) (.app {}) _ (by decide +kernel) rfl).mpr ?_
    rintro _ _ ⟨⟩
    exact .inl (.inr (.inl (by decide +kernel)))

end DesiredState

end Reliaburger
