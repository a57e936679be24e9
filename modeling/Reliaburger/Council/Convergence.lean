import Reliaburger.Council.HealingSteps
import Reliaburger.Library.Runs

/-! Healing a steady council comes to rest with no voter waiting for a replacement that exists, if
and only if from some tick on no swap is undone and a seat is free where one is needed. Otherwise
two full disks swap seats forever, or a full council waits.
-/

namespace Reliaburger

open CouncilObservation BTreeSet CouncilAction

namespace Reconciler

variable {reconciler : Reconciler} {seats : Seats} {id : Nat}

-- What healing needs

/-- A voter is leaving, and an eligible node outside the council is not under pressure. -/
def ailing (reconciler : Reconciler) (seats : Seats) : Bool :=
  seats.voters.toList.any reconciler.leaving
  && reconciler.members.any (fun member =>
      member.eligible reconciler.config reconciler.now
      && !seats.voters.contains member.raftId
      && !reconciler.diskPressured.contains member.nodeId)

/-- There is a seat to rank candidates for, and a learner is ready for it or may still join. -/
def seatFree (reconciler : Reconciler) (seats : Seats) : Bool :=
  decide ((reconciler.presentVoters seats.voters).length < reconciler.config.maxCouncilSize)
  && (!((reconciler.observation seats).ready reconciler.config reconciler.now).isEmpty
    || decide ((reconciler.observation seats).liveLearners
        < (reconciler.observation seats).wantedLearners reconciler.config reconciler.now))

/-- A tick can heal: it doesn't swap to no avail, and it has a seat for the replacement of a voter
that is leaving. -/
def canHeal (reconciler : Reconciler) (seats : Seats) : Bool :=
  !reconciler.swapsBack seats && (!reconciler.ailing seats || reconciler.seatFree seats)

theorem leavingFirst_none (steady : reconciler.Steady)
    (none : (reconciler.observation seats).leavingFirst reconciler.config reconciler.now = none)
    (member : id ∈ seats.voters)
    : reconciler.leaving id = false := by
  rw [leavingFirst, Option.or_eq_none_iff, List.head?_eq_none_iff,
    List.head?_eq_none_iff, List.eq_nil_iff_forall_not_mem, List.eq_nil_iff_forall_not_mem] at none
  have alive : reconciler.gone id = false := by
    rw [← deadPastWindow_tracked steady (tracked_of_voter member), ← Bool.not_eq_true,
      deadPastWindow_iff]
    exact fun dead => none.1 id (mem_deadVoters.mpr ⟨member, dead⟩)
  have stays : reconciler.resigning id = false := by
    rw [← pressured_voter member, ← Bool.not_eq_true]
    refine fun pressured => none.2 id (mem_pressuredVoters.mpr ⟨member, pressured, ?_⟩)
    rw [deadPastWindow_tracked steady (tracked_of_voter member)]
    exact alive
  rw [leaving, alive, stays]
  rfl

/-- A caught-up learner among the candidates is ready. -/
theorem candidate_ready (steady : reconciler.Steady) (learner : id ∈ seats.learners)
    (candidate : id ∈ reconciler.candidates seats.voters) (isLive : reconciler.live id = true)
    : (reconciler.observation seats).ready reconciler.config reconciler.now ≠ [] := by
  refine List.ne_nil_of_mem (mem_ready.mpr
    ⟨candidate, learner, ?_, steady.caughtUp seats id learner⟩)
  rw [stableAlive_tracked steady (tracked_of_learner learner)]
  exact isLive

theorem absent_of_outside {member : MembershipSnapshot}
    (outside : member.raftId ∉ seats.voters)
    : member.nodeId ∉ reconciler.presentVoters seats.voters := by
  intro present
  obtain ⟨_, voter, named⟩ := List.mem_filterMap.mp present
  rw [Std.ExtTreeSet.mem_toList] at voter
  obtain ⟨_, found, same⟩ := Option.map_eq_some_iff.mp named
  rw [directory] at found
  split at found
  · rename_i leader
    cases found
    rw [MembershipSnapshot.raftId, ← same] at outside
    rw [leader] at voter
    exact outside voter
  · obtain ⟨_, listed, rfl⟩ := Option.map_eq_some_iff.mp found
    have sameId := beq_iff_eq.mp (List.find?_eq_some_iff_append.mp listed).1
    rw [MembershipSnapshot.raftId, ← same] at outside
    rw [← sameId] at voter
    exact outside voter

/-- The council is healed where nothing ails it. -/
theorem healed_iff (steady : reconciler.Steady)
    : reconciler.Healed seats ↔ reconciler.ailing seats = false := by
  have leaves {id : Nat} (member : id ∈ seats.voters)
      : (reconciler.observation seats).deadPastWindow reconciler.config reconciler.now id = true
          ∨ (reconciler.observation seats).pressured id = true
        ↔ reconciler.leaving id = true := by
    rw [deadPastWindow_tracked steady (tracked_of_voter member), pressured_voter member, leaving,
      Bool.or_eq_true]
  rw [← Bool.not_eq_true, ailing, Bool.and_eq_true, List.any_eq_true, List.any_eq_true]
  simp only [Bool.and_eq_true, Bool.not_eq_true', ← Bool.not_eq_true,
    ← Std.ExtTreeSet.mem_iff_contains, List.contains_iff_mem, Std.ExtTreeSet.mem_toList]
  constructor
  · rintro healed ⟨⟨id, voter, isLeaving⟩, member, gossiped, ⟨eligible, outside⟩, calm⟩
    exact calm (healed id voter ((leaves voter).mpr isLeaving) member gossiped eligible outside)
  · intro calm id voter isLeaving member gossiped eligible outside
    by_contra spared
    exact calm ⟨⟨id, voter, (leaves voter).mp isLeaving⟩, member, gossiped, ⟨eligible, outside⟩,
      spared⟩

section

variable (steady : reconciler.Steady) (distinct : reconciler.DistinctIds)
  (seated : reconciler.Seated seats)
include distinct seated

/-- A swap to no avail is planned, so the planner does not rest. -/
theorem plan_swapsBack (swaps : reconciler.swapsBack seats = true)
    : reconciler.plan seats ≠ .nothing := by
  rw [swapsBack, Bool.and_eq_true, Bool.and_eq_true, decide_eq_true_eq, Option.any_eq_true,
    Option.any_eq_true] at swaps
  obtain ⟨⟨odd, remove, leaves, _⟩, promote, first, _⟩ := swaps
  obtain ⟨_, planned⟩ := planVoters_swap (wellFormed_observation distinct seated) seated.quorum odd
    leaves (List.ne_nil_of_mem (List.mem_of_head? first))
  rw [plan, planCouncilAction, if_neg (show ¬(reconciler.observation seats).changeInFlight = true
    from Bool.false_ne_true), seated.quorum, planned]
  exact CouncilAction.noConfusion

include steady

/-- At rest nobody is leaving while a node could take the seat. -/
theorem calm_of_nothing (rests : reconciler.plan seats = .nothing)
    (free : reconciler.ailing seats = true → reconciler.seatFree seats = true)
    : reconciler.ailing seats = false := by
  rw [← Bool.not_eq_true]
  intro ails
  have room := free ails
  rw [ailing, Bool.and_eq_true, List.any_eq_true, List.any_eq_true] at ails
  simp only [Bool.and_eq_true, Bool.not_eq_true', ← Bool.not_eq_true,
    ← Std.ExtTreeSet.mem_iff_contains, Std.ExtTreeSet.mem_toList] at ails
  obtain ⟨⟨id, voter, isLeaving⟩, member, gossiped, ⟨eligible, outside⟩, _⟩ := ails
  have ticked := plan_ticked steady seated
  rw [rests] at ticked
  obtain ⟨kept, full⟩
      : (reconciler.observation seats).planVoters reconciler.config reconciler.now = none
        ∧ ((reconciler.observation seats).wantedLearners reconciler.config reconciler.now
            ≤ (reconciler.observation seats).liveLearners
          ∨ (reconciler.observation seats).newLearner reconciler.config reconciler.now
            = none) := by
    cases ticked with
    | voters action planned => cases planVoters_change planned
    | nothing kept full => exact ⟨kept, full⟩
  have notReady : (reconciler.observation seats).ready reconciler.config reconciler.now = [] := by
    refine (planVoters_none (wellFormed_observation distinct seated)
      seated.quorum kept).resolve_right fun nobody => ?_
    rw [leavingFirst_none steady nobody.2 voter] at isLeaving
    cases isLeaving
  rw [seatFree, notReady, Bool.and_eq_true, decide_eq_true_eq, List.isEmpty_nil, Bool.not_true,
    Bool.false_or, decide_eq_true_eq] at room
  -- Somebody is ranked for the free seat, and is not a learner yet.
  obtain ⟨candidate, listed⟩ : ∃ candidate, candidate ∈ reconciler.candidates seats.voters := by
    refine List.exists_mem_of_ne_nil _ fun none => ?_
    exact selectCouncilCandidates_ne_nil room.1 gossiped eligible (absent_of_outside outside)
      (List.map_eq_nil_iff.mp none)
  obtain ⟨spare, isLive, _⟩ := candidate_cases distinct seated.leader listed
  have none := full.resolve_left (Nat.not_le.mpr room.2)
  have passes := List.find?_eq_none.mp none candidate listed
  rw [stableAlive_tracked steady (List.mem_append_right _ listed), isLive] at passes
  refine passes ?_
  have notLearner : candidate ∉ seats.learners := fun learner =>
    candidate_ready steady learner listed isLive notReady
  rw [Std.ExtTreeSet.mem_iff_contains, Bool.not_eq_true] at notLearner spare
  simp only [observation, notLearner, spare, Bool.not_false, Bool.and_self]

end

-- Healing converges

section

variable {start : Seats} (steady : reconciler.Steady) (distinct : reconciler.DistinctIds)
  (seated : reconciler.Seated start)
include steady distinct seated

theorem iterate_seated (count : Nat) : reconciler.Seated (reconciler.tick^[count] start) :=
  Settling.iterate_invariant (fun _ seated => tick_seated steady distinct seated) count seated

/-- Once every tick can heal, the planner comes to rest. -/
theorem exists_nothing {since : Nat}
    (heals : ∀ later, since ≤ later → reconciler.canHeal (reconciler.tick^[later] start) = true)
    : ∃ count, since ≤ count ∧ reconciler.plan (reconciler.tick^[count] start) = .nothing := by
  have along (later : Nat) (after : since ≤ later)
      : reconciler.plan (reconciler.tick^[later] start) = .nothing
        ∨ reconciler.level (reconciler.tick (reconciler.tick^[later] start))
          < reconciler.level (reconciler.tick^[later] start) := by
    have sound := heals later after
    rw [canHeal, Bool.and_eq_true, Bool.not_eq_true'] at sound
    exact tick_level_lt steady distinct (iterate_seated steady distinct seated later) sound.1
  obtain ⟨count, rests⟩ := @Settling.exists_rest _ _ _ _ reconciler.tick
    (fun seats => ∃ later, since ≤ later ∧ seats = reconciler.tick^[later] start)
    (fun seats => reconciler.plan seats = .nothing) reconciler.level
    (fun _ ⟨later, after, same⟩ => ⟨later + 1, by omega, by
      rw [same, Function.iterate_succ_apply']⟩)
    (fun _ ⟨later, after, same⟩ => same ▸ along later after) _
    ⟨since, le_rfl, rfl⟩
  exact ⟨count + since, by omega, by rwa [Function.iterate_add_apply]⟩

end

/-- From any membership with a live majority, healing comes to rest with the council healed if and
only if from some tick on every tick can heal: every such tick lowers the level, and at rest only a
missing seat keeps a replacement out.
-/
theorem healing_converges_iff (reconciler : Reconciler) (start : Seats)
    (steady : reconciler.Steady) (distinct : reconciler.DistinctIds)
    (seated : reconciler.Seated start)
    : reconciler.Converges start
      ↔ ∃ since, ∀ later, since ≤ later
          → reconciler.canHeal (reconciler.tick^[later] start) = true := by
  have seatedAt := iterate_seated steady distinct seated
  constructor
  · rintro ⟨count, rests⟩
    refine ⟨count, fun later after => ?_⟩
    obtain ⟨nothing, healed⟩ := rests later after
    have keeps : reconciler.swapsBack (reconciler.tick^[later] start) = false := by
      rw [← Bool.not_eq_true]
      exact fun swaps => plan_swapsBack distinct (seatedAt later) swaps nothing
    rw [canHeal, keeps, (healed_iff steady).mp healed]
    rfl
  · rintro ⟨since, heals⟩
    obtain ⟨count, after, rests⟩ := exists_nothing steady distinct seated heals
    have fixed
        : reconciler.tick (reconciler.tick^[count] start) = reconciler.tick^[count] start := by
      rw [tick, rests]
      rfl
    have sound := heals count after
    rw [canHeal, Bool.and_eq_true, Bool.or_eq_true, Bool.not_eq_true', Bool.not_eq_true'] at sound
    refine ⟨count, fun later after => ?_⟩
    rw [Settling.iterate_rest fixed after]
    refine ⟨rests, (healed_iff steady).mpr (calm_of_nothing steady distinct (seatedAt count) rests
      fun ails => sound.2.resolve_left ?_)⟩
    rw [ails]
    exact Bool.noConfusion

def gossiped (name : String) (state : NodeState) : MembershipSnapshot where
  nodeId := name
  state := state
  labels := ∅
  firstSeen := 0
  resources := none

def unaged : CouncilSelectionConfig :=
  { CouncilSelectionConfig.default with minNodeAge := 0 }

/-- A leader that has waited out every window over an empty log. -/
def longRunning (members : List MembershipSnapshot) (diskPressured : List String)
    : Reconciler where
  members := members
  leaderName := "a"
  diskPressured := diskPressured
  config := unaged
  now := 60 * 1000000000
  since := fun _ => 0
  lastLogIndex := none
  matched := fun _ => none

theorem longRunning_steady (members : List MembershipSnapshot) (diskPressured : List String)
    : (longRunning members diskPressured).Steady where
  sizes := (by decide : 3 ≤ 7)
  deadWindow := fun _ => (by decide : 30 * 1000000000 ≤ 60 * 1000000000 - 0)
  aliveWindow := fun _ => (by decide : 5 * 1000000000 ≤ 60 * 1000000000 - 0)
  caughtUp := fun seats id _ => by
    simp only [learnerCaughtUp, observation, longRunning, Option.getD_none]
    split
    · simp
    · rfl

def seatsOf (voters learners : List String) : Seats where
  voters := BTreeSet.ofItems (voters.map raftIdFromName)
  learners := BTreeSet.ofItems (learners.map raftIdFromName)

theorem seatsOf_disjoint {voters learners : List String}
    (disjoint : ∀ id ∈ voters.map raftIdFromName, id ∉ learners.map raftIdFromName)
    : ∀ id ∈ (seatsOf voters learners).voters, id ∉ (seatsOf voters learners).learners := by
  intro id voter learner
  rw [seatsOf, mem_ofItems] at voter learner
  exact disjoint id voter learner

/-- Two nodes under disk pressure, one of them a voter. -/
def fullDisks : Reconciler :=
  longRunning [gossiped "a" .alive, gossiped "b" .alive, gossiped "p" .alive, gossiped "q" .alive]
    ["p", "q"]

/-- The two nodes under pressure take each other's seat for ever: pressure is only observed of
voters, so the one that just left is the best candidate again. -/
theorem resigning_voters_swap_forever
    : ¬∀ (reconciler : Reconciler) (start : Seats), reconciler.Steady → reconciler.Seated start
        → reconciler.Converges start := by
  intro converges
  have seated : fullDisks.Seated (seatsOf ["a", "b", "p"] ["q"]) :=
    ⟨by decide +kernel, seatsOf_disjoint (by decide +kernel), by decide +kernel⟩
  have around : fullDisks.tick^[4] (seatsOf ["a", "b", "p"] ["q"])
      = seatsOf ["a", "b", "p"] ["q"] := by
    decide +kernel
  have swaps : fullDisks.plan (seatsOf ["a", "b", "p"] ["q"]) ≠ .nothing := by
    decide +kernel
  obtain ⟨count, rests⟩ := converges fullDisks _ (longRunning_steady _ _) seated
  have rests := (rests (4 * count) (by omega)).1
  rw [Function.iterate_mul, Function.iterate_fixed around] at rests
  exact swaps rests

/-- A voter died, another is under disk pressure, and there is one learner and one spare node. -/
def twoLeaving : Reconciler :=
  longRunning [gossiped "a" .alive, gossiped "b" .alive, gossiped "c" .dead, gossiped "d" .alive,
    gossiped "p" .alive] ["p"]

/-- Both voters are replaced within three ticks, and the one under pressure ends as a learner. -/
theorem twoLeaving_converges
    : twoLeaving.tick^[4] (seatsOf ["a", "c", "p"] ["b"]) = seatsOf ["a", "b", "d"] ["p"]
      ∧ twoLeaving.Converges (seatsOf ["a", "c", "p"] ["b"]) := by
  have last : twoLeaving.tick^[4] (seatsOf ["a", "c", "p"] ["b"])
      = seatsOf ["a", "b", "d"] ["p"] := by
    decide +kernel
  have fixed : twoLeaving.tick (seatsOf ["a", "b", "d"] ["p"])
      = seatsOf ["a", "b", "d"] ["p"] := by
    decide +kernel
  refine ⟨last, (healing_converges_iff twoLeaving _ (longRunning_steady _ _)
    ⟨by decide +kernel, by decide +kernel⟩
    ⟨by decide +kernel, seatsOf_disjoint (by decide +kernel), by decide +kernel⟩).mpr
    ⟨4, fun later after => ?_⟩⟩
  rw [Settling.iterate_rest (by rw [last, fixed]) after, last]
  decide +kernel

end Reconciler

end Reliaburger
