import Reliaburger.Leader.Grants
import Reliaburger.Library.Runs

/-! One rolling replacement: new instances are started and old ones retired one at a time, within a
surge above the target and a shortfall below it, while started instances become healthy in their own
time.
-/

namespace Reliaburger

/-- How many replicas may be extra, and how many missing, in a deploy. -/
structure DeployConfig where
  maxSurge : Nat
  maxUnavailable : Nat

def DeployConfig.validate (config : DeployConfig) : Except String Unit :=
  if config.maxSurge = 0 ∧ config.maxUnavailable = 0 then
    .error ("max_surge and max_unavailable are both 0, so a rolling deploy can never start a "
      ++ "replacement or retire an old instance — set at least one to 1")
  else .ok ()

/-- What a rolling deploy does next. -/
inductive RollingStep where
  | startNew
  | retireOld
  | wait
  | done
  | stuck
deriving DecidableEq, Repr

/-- The next step, from how many replicas are new, pending and old. -/
def planRollingStep
    (target newHealthy newPending oldRemaining maxSurge maxUnavailable : Nat)
    : RollingStep :=
  if newHealthy ≥ target ∧ oldRemaining = 0 then .done
  else
    let serving := newHealthy + oldRemaining
    let total := newHealthy + newPending + oldRemaining
    let owed := newHealthy + newPending < target
    if owed ∧ total < saturatingAdd32 target maxSurge then .startNew
    else if oldRemaining > 0 ∧ serving > target - maxUnavailable then .retireOld
    else if newPending > 0 then .wait
    else if owed ∨ oldRemaining > 0 then .stuck
    else .done

/-- The instances of a rollout. -/
structure Rollout where
  healthy : Nat
  pending : Nat
  old : Nat

inductive RolloutEvent where
  | act
  | turnHealthy

namespace Rollout

variable (target : Nat) (config : DeployConfig)

def planned (rollout : Rollout) : RollingStep :=
  planRollingStep target rollout.healthy rollout.pending rollout.old config.maxSurge
    config.maxUnavailable

def step (rollout : Rollout) : RolloutEvent → Rollout
  | .act =>
    match rollout.planned target config with
    | .startNew => { rollout with pending := rollout.pending + 1 }
    | .retireOld => { rollout with old := rollout.old - 1 }
    | _ => rollout
  | .turnHealthy =>
    if rollout.pending = 0 then rollout
    else { rollout with healthy := rollout.healthy + 1, pending := rollout.pending - 1 }

def after (old : Nat) (events : List RolloutEvent) : Rollout :=
  Runs.run (step target config) ⟨0, 0, old⟩ events

/-- The rollout when the first `time` events of the schedule have happened. -/
def trace (old : Nat) (schedule : Nat → RolloutEvent) (time : Nat) : Rollout :=
  after target config old ((List.range time).map schedule)

/-- What a rollout that began with `old` instances keeps within. -/
structure Bounded (old : Nat) (rollout : Rollout) : Prop where
  placed : rollout.healthy + rollout.pending ≤ target
  total : rollout.healthy + rollout.pending + rollout.old ≤ max (target + config.maxSurge) old
  serving : min old (target - config.maxUnavailable) ≤ rollout.healthy + rollout.old

/-- Starts and retirements left, a start counting twice since its instance has yet to turn
healthy. -/
def outstanding (rollout : Rollout) : Nat :=
  2 * (target - rollout.healthy - rollout.pending) + rollout.pending + rollout.old

/-- The changes a step can make. -/
inductive Moves : Rollout → Rollout → Prop where
  | start {healthy pending old : Nat} (owed : healthy + pending < target)
      (room : healthy + pending + old < target + config.maxSurge)
      : Moves ⟨healthy, pending, old⟩ ⟨healthy, pending + 1, old⟩
  | retire {healthy pending old : Nat}
      (spare : target - config.maxUnavailable < healthy + (old + 1))
      : Moves ⟨healthy, pending, old + 1⟩ ⟨healthy, pending, old⟩
  | turn {healthy pending old : Nat} : Moves ⟨healthy, pending + 1, old⟩ ⟨healthy + 1, pending, old⟩

/-- The event finds nothing to do. -/
def Idle (rollout : Rollout) : RolloutEvent → Prop
  | .act =>
    rollout.planned target config ≠ .startNew ∧ rollout.planned target config ≠ .retireOld
  | .turnHealthy => rollout.pending = 0

variable {target config} {old : Nat} {rollout next : Rollout}

/-- An idle event changes nothing, and every other one moves the rollout on. -/
theorem step_moves (rollout : Rollout) (event : RolloutEvent)
    : Idle target config rollout event ∧ step target config rollout event = rollout
      ∨ Moves target config rollout (step target config rollout event) := by
  obtain ⟨_, pending, _⟩ := rollout
  cases event with
  | act =>
    simp only [Idle, step, planned, planRollingStep, saturatingAdd32]
    split_ifs with _ start retire
    · exact .inl (by simp)
    · exact .inr (.start start.1 (by omega))
    · obtain ⟨_, rfl⟩ := Nat.exists_eq_add_of_lt retire.1
      exact .inr (.retire retire.2)
    all_goals exact .inl (by simp)
  | turnHealthy =>
    cases pending with
    | zero => exact .inl ⟨rfl, rfl⟩
    | succ pending => exact .inr .turn

theorem Moves.bounded (moves : Moves target config rollout next)
    (bounded : Bounded target config old rollout)
    : Bounded target config old next := by
  obtain ⟨placed, total, serving⟩ := bounded
  cases moves <;> constructor <;> simp only at placed total serving ⊢ <;> omega

theorem Moves.lowers (moves : Moves target config rollout next)
    : outstanding target next < outstanding target rollout := by
  cases moves <;> simp only [outstanding] <;> omega

/-- The bounds hold after any events. -/
theorem bounded_after (events : List RolloutEvent)
    : Bounded target config old (after target config old events) := by
  have kept (rollout : Rollout) (event : RolloutEvent) (bounded : Bounded target config old rollout)
      : Bounded target config old (step target config rollout event) := by
    rcases step_moves rollout event with ⟨_, still⟩ | moves
    · rwa [still]
    · exact moves.bounded bounded
  exact Runs.run_invariant kept (by constructor <;> simp)

theorem step_ne {event : RolloutEvent} (busy : ¬ Idle target config rollout event)
    : step target config rollout event ≠ rollout := by
  rcases step_moves rollout event with ⟨idle, _⟩ | moves
  · exact absurd idle busy
  · exact fun same => moves.lowers.ne (congrArg (outstanding target) same)

/-- A rollout that is done has replaced everything. -/
theorem eq_of_done (bounded : Bounded target config old rollout)
    (done : rollout.planned target config = .done)
    : rollout = ⟨target, 0, 0⟩ := by
  obtain ⟨_, _, _⟩ := rollout
  have placed := bounded.placed
  simp only [planned, planRollingStep, mk.injEq] at done placed ⊢
  split_ifs at done <;> omega

/-- With a budget to move in, one side of it always admits a step. -/
theorem planned_ne_stuck (movable : config.validate = .ok ())
    (small : target + config.maxSurge < u32Size)
    : rollout.planned target config ≠ .stuck := by
  have budget : ¬ (config.maxSurge = 0 ∧ config.maxUnavailable = 0) := fun none => by
    simp [DeployConfig.validate, none] at movable
  have ceiling : min (target + config.maxSurge) (u32Size - 1) = target + config.maxSurge := by omega
  intro stuck
  simp only [planned, planRollingStep, saturatingAdd32, ceiling] at stuck
  split_ifs at stuck
  omega

theorem pending_of_wait (waits : rollout.planned target config = .wait) : 0 < rollout.pending := by
  simp only [planned, planRollingStep] at waits
  split_ifs at waits
  assumption

theorem trace_succ (schedule : Nat → RolloutEvent) (time : Nat)
    : trace target config old schedule (time + 1)
      = step target config (trace target config old schedule time) (schedule time) := by
  simp [trace, after, List.range_succ]

/-- A rollout with a budget to move in is never stuck, waits only for an instance that is coming up
and keeps within both budgets; and if it is driven on and its instances become healthy, it comes to
rest with the target's healthy instances and no old one. -/
theorem rollout_completes (target old : Nat) (config : DeployConfig)
    (movable : config.validate = .ok ()) (small : target + config.maxSurge < u32Size)
    (few : old < u32Size)
    : (∀ events, let rollout := after target config old events
        rollout.planned target config ≠ .stuck
        ∧ (rollout.planned target config = .wait → 0 < rollout.pending)
        ∧ (rollout.planned target config = .done → rollout = ⟨target, 0, 0⟩)
        ∧ rollout.healthy + rollout.pending + rollout.old < u32Size
        ∧ rollout.healthy + rollout.pending + rollout.old ≤ max (target + config.maxSurge) old
        ∧ min old (target - config.maxUnavailable) ≤ rollout.healthy + rollout.old)
      ∧ ∀ schedule, (∀ time, ∃ later, time ≤ later ∧ schedule later = .act)
        → (∀ time, 0 < (trace target config old schedule time).pending
          → ∃ later, time ≤ later ∧ schedule later = .turnHealthy)
        → ∃ time, (trace target config old schedule time).planned target config = .done := by
  constructor
  · intro events
    have bounded : Bounded target config old (after target config old events) :=
      bounded_after events
    have total := bounded.total
    exact ⟨planned_ne_stuck movable small, pending_of_wait, eq_of_done bounded, by omega, total,
      bounded.serving⟩
  · intro schedule acts settles
    refine @Settling.exists_rest_along _ _ _ _
      (fun rollout => rollout.planned target config = .done) _ (outstanding target)
      (fun time => ?_) fun time => ?_
    · rw [trace_succ]
      exact (step_moves _ _).imp And.right Moves.lowers
    -- An act moves whenever something is planned, and otherwise something is pending.
    cases plan : (trace target config old schedule time).planned target config with
    | done => exact .inl rfl
    | stuck => exact absurd plan (planned_ne_stuck movable small)
    | wait =>
      have pending := pending_of_wait plan
      obtain ⟨later, after, turns⟩ := settles time pending
      refine .inr ⟨later, after, fun same => ?_⟩
      rw [trace_succ, turns, same]
      exact step_ne pending.ne'
    | startNew | retireOld =>
      obtain ⟨later, after, act⟩ := acts time
      refine .inr ⟨later, after, fun same => ?_⟩
      rw [trace_succ, act, same]
      exact step_ne (by simp [Idle, plan])

/-- Three instances are replaced by three that turn healthy as soon as they are started. -/
theorem three_replaced
    : ∃ time,
      (trace 3 ⟨1, 0⟩ 3 (fun time => if time % 2 = 0 then .act else .turnHealthy) time).planned
        3 ⟨1, 0⟩ = .done := by
  refine (rollout_completes 3 3 ⟨1, 0⟩ (by rfl) (by decide) (by decide)).2 _
    (fun time => ⟨2 * time, by omega, by simp⟩) fun time _ => ⟨2 * time + 1, by omega, ?_⟩
  rw [if_neg (by omega)]

end Rollout

end Reliaburger
