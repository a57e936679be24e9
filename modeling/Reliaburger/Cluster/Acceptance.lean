import Reliaburger.Cluster.DaemonRoom

/-! The council accepts what a pass decides: every decision is sound at its app's turn, and together
they are one decision for each of several apps.
-/

namespace Reliaburger

open DesiredState ScheduledState

-- The council's side

namespace DesiredState

/-- What a pass reads of the desired state, given how the scheduler reads a spec. -/
def scheduled (state : DesiredState) (view : AppSpec → WorkloadSpec)
    (lastPlacedNodes : BTreeMap AppId (List NodeId))
    : ScheduledState where
  apps := state.apps.map (fun _ spec => view spec)
  stoppedApps := state.stoppedApps
  autoscaleOverrides := state.autoscaleOverrides
  scheduling := state.scheduling
  lastPlacedNodes := lastPlacedNodes
  retiredNodes := BTreeSet.ofItems state.security.crl.retiredNodes.keys

variable {state : DesiredState} {view : AppSpec → WorkloadSpec}
  {lastPlacedNodes : BTreeMap AppId (List NodeId)}

theorem scheduled_retired (nodeId : NodeId)
    : (state.scheduled view lastPlacedNodes).retiredNodes.contains nodeId
      = state.security.isRetired nodeId := by
  rw [Bool.eq_iff_iff, ← Std.ExtTreeSet.mem_iff_contains, SecurityState.isRetired,
    ← Std.ExtTreeMap.mem_iff_contains]
  exact BTreeSet.mem_ofItems.trans Std.ExtTreeMap.mem_keys

/-- A decision the council applies: for an ordinary namespace, with its ordinals apart and no
retired node. -/
structure Acceptable (state : DesiredState) (decision : SchedulingDecision) : Prop where
  ordinary : startsWith decision.appId.ns "rbtest-" = false
  apart : (decision.placements.map (·.ordinal)).Nodup
  active : ∀ placement ∈ decision.placements, state.security.isRetired placement.nodeId = false

theorem applySchedulingDecision_acceptable {decision : SchedulingDecision}
    (acceptable : state.Acceptable decision)
    : state.applySchedulingDecision decision
      = .ok { state with
          scheduling := state.scheduling.insert decision.appId decision.placements } := by
  have active : ¬decision.placements.any
      (fun placement => state.security.isRetired placement.nodeId) = true := by
    rw [List.any_eq_true]
    rintro ⟨placement, listed, retired⟩
    rw [acceptable.active placement listed] at retired
    cases retired
  have apart : ¬¬(decision.placements.map (·.ordinal)).Nodup := fun shared =>
    shared acceptable.apart
  rw [applySchedulingDecision]
  simp only [refuseWhen, Checks.refuseIf, if_neg active, if_neg apart, acceptable.ordinary,
    Bool.false_eq_true, if_false]
  rfl

/-- A pass of acceptable decisions for distinct apps replaces their placements. -/
theorem applyDecisions_acceptable {decisions : List SchedulingDecision} {identities : List AppId}
    (distinct : (decisions.map (·.appId)).Nodup)
    (unseen : ∀ decision ∈ decisions, decision.appId ∉ identities)
    (acceptable : ∀ decision ∈ decisions, state.Acceptable decision)
    : applyDecisions decisions identities state
      = .ok { state with
          scheduling := decisions.foldl
            (fun scheduling decision => scheduling.insert decision.appId decision.placements)
            state.scheduling } := by
  induction decisions generalizing identities state with
  | nil => rfl
  | cons first rest ih =>
    obtain ⟨alone, distinct⟩ := List.nodup_cons.mp distinct
    have fresh : first.appId ∉ identities := unseen first List.mem_cons_self
    have applied := applySchedulingDecision_acceptable (acceptable first List.mem_cons_self)
    rw [applyDecisions]
    simp only [refuseWhen, Checks.refuseIf, if_neg fresh, applied]
    refine ih distinct (fun later listed => ?_) fun later listed => ?_
    · rw [List.mem_cons, not_or]
      refine ⟨fun same => alone ?_, unseen later (List.mem_cons_of_mem _ listed)⟩
      exact List.mem_map.mpr ⟨later, listed, same⟩
    · obtain ⟨ordinary, apart, active⟩ := acceptable later (List.mem_cons_of_mem _ listed)
      exact ⟨ordinary, apart, active⟩

theorem scheduling_commitAll (decisions : List SchedulingDecision) (desired : ScheduledState)
    : (desired.commitAll decisions).scheduling
      = decisions.foldl
          (fun scheduling decision => scheduling.insert decision.appId decision.placements)
          desired.scheduling := by
  induction decisions generalizing desired with
  | nil => rfl
  | cons first rest ih => exact ih (desired.commit first)

/-- The council commits an acceptable pass within its limits, if nothing was applied since. -/
theorem schedulingDecisions_acceptable {decisions : List SchedulingDecision}
    (position : Option LogId) (distinct : (decisions.map (·.appId)).Nodup)
    (acceptable : ∀ decision ∈ decisions, state.Acceptable decision)
    (few : decisions.length ≤ 4096)
    (small : (decisions.map (fun decision => decision.placements.length)).sum ≤ 131072)
    : state.schedulingDecisions position position decisions
      = .ok (.applied, { state with
          scheduling :=
            ((state.scheduled view lastPlacedNodes).commitAll decisions).scheduling }) := by
  have within : ¬(decisions.length > 4096
      ∨ (decisions.map (fun decision => decision.placements.length)).sum > 131072) := by
    omega
  have applied := @applyDecisions_acceptable state decisions [] distinct
    (fun _ _ => List.not_mem_nil) acceptable
  rw [schedulingDecisions]
  simp only [refuseWhen, Checks.refuseIf, ne_eq, not_true_eq_false, if_false, if_neg within,
    applied]
  rw [scheduling_commitAll]
  rfl

end DesiredState

-- The pass's side

/-- The committed placements of each app have distinct ordinals and name no retired node. -/
structure ScheduledState.Orderly (desired : ScheduledState) : Prop where
  distinct : ∀ appId, ((desired.placementsOf appId).map (·.ordinal)).Nodup
  active
    : ∀ appId, ∀ placement ∈ desired.placementsOf appId,
        desired.retiredNodes.contains placement.nodeId = false

theorem ScheduledState.orderly_of_entries {desired : ScheduledState}
    (entries : ∀ entry ∈ desired.scheduling.toList, (entry.2.map (·.ordinal)).Nodup
      ∧ ∀ placement ∈ entry.2, desired.retiredNodes.contains placement.nodeId = false)
    : desired.Orderly := by
  have each (appId : AppId)
      : ((desired.placementsOf appId).map (·.ordinal)).Nodup
        ∧ ∀ placement ∈ desired.placementsOf appId,
            desired.retiredNodes.contains placement.nodeId = false := by
    rw [placementsOf]
    cases known : desired.scheduling[appId]? with
    | none => exact ⟨List.nodup_nil, fun _ listed => (List.not_mem_nil listed).elim⟩
    | some placements => exact entries (appId, placements) (BTreeMap.mem_toList.mpr known)
  exact ⟨fun appId => (each appId).1, fun appId => (each appId).2⟩

namespace Pass

variable {pass : Pass} {cache : ClusterStateCache} {quotas : QuotaLedger}

/-- No decision has more placements than the app wants, as long as nothing shrinks before the turn
of a daemon set. -/
def Wanted (pass : Pass) (cache : ClusterStateCache) (spec : WorkloadSpec)
    (decision : SchedulingDecision)
    : Prop :=
  cache.Representable
  → pass.Unshrunk cache decision.appId spec
  → decision.placements.length ≤ (pass.wants (pass.prepare cache) decision.appId spec).1

/-- Every decision of a pass is sound at the turn of its app. -/
theorem run_sound (orderly : pass.desired.Orderly) {decision : SchedulingDecision}
    (listed : decision ∈ (pass.finish cache quotas).decisions)
    : ∃ spec, pass.desired.apps[decision.appId]? = some spec
      ∧ pass.SoundDecision (pass.stateAt cache quotas decision.appId).cache
        (pass.planApp (pass.prepare cache) decision.appId spec)
        (decision.appId ∈ (pass.finish cache quotas).unschedulable) decision
      ∧ pass.Wanted cache spec decision := by
  rcases run_decision (step_filledAt pass) listed with
    none | ⟨before, app, after, turns, _, turn, _, replicas, filled⟩
  · cases none
  have planned := planned_of_turns turns
  obtain ⟨reported, unreported⟩ := @unschedulable_turn pass cache app quotas before after turns
  rw [← stateAt_eq turns] at filled
  have alike : (pass.prepare cache).Alike (pass.stateAt cache quotas app.appId).cache :=
    run_alike pass _ (pass.begin cache quotas)
  have sound := decided_sound planned alike (orderly.distinct app.appId)
    (orderly.active app.appId) filled.fills
  have want : (pass.wants (pass.prepare cache) app.appId app.spec).1 = app.want :=
    congrArg AppPass.want planned.made.symm
  rw [filled.made]
  refine ⟨app.spec, planned.spec, ?_, fun representable unshrunk => ?_⟩
  case refine_2 =>
    rw [want]
    cases size : app.replicas with
    | fixed count => exact length_decided_le size filled.fills
    | daemonSet => exact length_decided_daemon unshrunk representable planned size filled.fills
  rw [← planned.made]
  convert sound using 1
  -- The app is in the report iff its turn found no node for something.
  rw [BTreeMap.mem_iff, reported, filled.turn, fill_unschedulable]
  cases (pass.added turn app replicas).unplaced with
  | none => simp [unreported]
  | some unplaced => simp

theorem nodup_decisions
    : ((pass.finish cache quotas).decisions.map (·.appId)).Nodup := by
  obtain ⟨_, same, within⟩ := @run_decisions pass (pass.planned (pass.prepare cache))
    (pass.begin cache quotas)
  rw [same]
  exact within.nodup (nodup_planned pass _)

end Pass

def twoNodes (node : SchedulerNodeState) : ClusterStateCache where
  nodes := ((∅ : BTreeMap NodeId SchedulerNodeState).insert "m" node).insert "n" node

/-- A daemon set with one copy and an app with two of three replicas, ordinal 1 gone. -/
def halfPlaced : DesiredState where
  apps := ((∅ : BTreeMap AppId AppSpec).insert ⟨"agent", "prod"⟩ { body := "daemon" }).insert
    webApp {}
  scheduling := ((∅ : BTreeMap AppId (List Placement)).insert ⟨"agent", "prod"⟩
    [⟨"n", ⟨1, 0, 0⟩, 0⟩]).insert webApp [⟨"n", ⟨3, 0, 0⟩, 0⟩, ⟨"m", ⟨3, 0, 0⟩, 2⟩]

def readBody (spec : AppSpec) : WorkloadSpec :=
  if spec.body = "daemon" then { replicas := .daemonSet, cpu := some ⟨1, 1⟩ }
  else { replicas := .fixed 3, cpu := some ⟨3, 3⟩ }

/-- Two replicas of six millicores are wanted; three are committed, on `a`, `b` and `n`. -/
def scaledDown : ScheduledState where
  apps := (∅ : BTreeMap AppId WorkloadSpec).insert webApp
    { replicas := .fixed 2, cpu := some ⟨6, 6⟩ }
  scheduling := (∅ : BTreeMap AppId (List Placement)).insert webApp
    [⟨"a", ⟨6, 0, 0⟩, 0⟩, ⟨"b", ⟨6, 0, 0⟩, 1⟩, ⟨"n", ⟨6, 0, 0⟩, 2⟩]

/-- A daemon set with a copy on `n`, beside an app on `n` that shrinks from eight millicores to
one. -/
def shrinkingBesideDaemon : ScheduledState where
  apps := ((∅ : BTreeMap AppId WorkloadSpec).insert ⟨"api", "prod"⟩ { cpu := some ⟨1, 1⟩ }).insert
    webApp { replicas := .daemonSet, cpu := some ⟨5, 5⟩ }
  scheduling := ((∅ : BTreeMap AppId (List Placement)).insert ⟨"api", "prod"⟩
    [⟨"n", ⟨8, 0, 0⟩, 0⟩]).insert webApp [⟨"n", ⟨5, 0, 0⟩, 0⟩]

end Reliaburger
