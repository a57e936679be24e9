import Reliaburger.Library.TreeMap

/-! The council's self-healing planner: which single change of the voters or learners the leader
makes from the health, the replication progress and the spare candidates it observed.
-/

namespace Reliaburger

open Std.ExtTreeSet

-- What the planner sees and what it may answer

/-- Bounds of the council and the windows of the planner. Times are nanoseconds. -/
structure CouncilSelectionConfig where
  minNodeAge : Nat
  /-- Whether a used amount of a capacity is below `max_cpu_usage_fraction`. -/
  cpuWithin : Nat → Nat → Bool
  /-- Whether a used amount of a capacity is below `max_memory_usage_fraction`. -/
  memoryWithin : Nat → Nat → Bool
  zoneLabelKey : String
  minCouncilSize : Nat
  maxCouncilSize : Nat
  deadWindow : Nat
  candidateAliveWindow : Nat
  maxPromotionLag : Nat

def CouncilSelectionConfig.default : CouncilSelectionConfig where
  minNodeAge := 600 * 1000000000
  cpuWithin used capacity := decide (used * 100 < capacity * 90)
  memoryWithin used capacity := decide (used * 100 < capacity * 85)
  zoneLabelKey := "zone"
  minCouncilSize := 3
  maxCouncilSize := 7
  deadWindow := 30 * 1000000000
  candidateAliveWindow := 5 * 1000000000
  maxPromotionLag := 64

/-- Gossip-derived health, with the time the windows are measured from. -/
inductive MemberHealth where
  | alive (since : Nat)
  /-- Neither promotable nor evictable. -/
  | suspect
  | dead (since : Nat)
deriving DecidableEq, Repr

inductive CouncilAction where
  | addLearner (id : Nat)
  | promote (id : Nat)
  | promotePair (first second : Nat)
  /-- Swap a learner in for a voter, who leaves the membership. -/
  | replace (promote remove : Nat)
  | removeVoter (id : Nat)
  | removeVoterPair (first second : Nat)
  | removeLearner (id : Nat)
  | nothing
deriving DecidableEq, Repr

def CouncilAction.votersAfter (action : CouncilAction) (voters : BTreeSet Nat) : BTreeSet Nat :=
  match action with
  | .promote id => voters.insert id
  | .promotePair first second => (voters.insert first).insert second
  | .replace incoming outgoing => (voters.insert incoming).erase outgoing
  | .removeVoter id => voters.erase id
  | .removeVoterPair first second => (voters.erase first).erase second
  | .addLearner _ | .removeLearner _ | .nothing => voters

/-- The largest odd number of voters not above `count`, and at least one. -/
def largestOddAtMost (count : Nat) : Nat :=
  match count with
  | 0 | 1 => 1
  | count => if count % 2 = 1 then count else count - 1

def majority (count : Nat) : Nat :=
  count / 2 + 1

structure CouncilObservation where
  voters : BTreeSet Nat
  learners : BTreeSet Nat
  /-- The planning node itself, always treated as alive. -/
  leaderId : Nat
  health : BTreeMap Nat MemberHealth
  /-- Spare nodes, best first. -/
  candidates : List Nat
  leaderLastLogIndex : Option Nat
  /-- The matched log index of each follower and learner. -/
  replication : BTreeMap Nat (Option Nat)
  /-- A joint membership change is still committing. -/
  changeInFlight : Bool
  /-- Voters under sustained disk pressure, who want to resign. -/
  diskPressured : BTreeSet Nat

-- The planner

namespace CouncilObservation

variable (observation : CouncilObservation) (config : CouncilSelectionConfig) (now : Nat)

def alive (id : Nat) : Bool :=
  id == observation.leaderId
  || match observation.health[id]? with
    | some (.alive _) => true
    | _ => false

def stableAlive (id : Nat) : Bool :=
  id == observation.leaderId
  || match observation.health[id]? with
    | some (.alive since) => decide (config.candidateAliveWindow ≤ now - since)
    | _ => false

def deadPastWindow (id : Nat) : Bool :=
  id != observation.leaderId
  && match observation.health[id]? with
    | some (.dead since) => decide (config.deadWindow ≤ now - since)
    | _ => false

/-- A voter other than the leader who wants to resign. -/
def pressured (id : Nat) : Bool :=
  id != observation.leaderId && observation.diskPressured.contains id

/-- Whether a learner trails the leader's log by at most the promotion lag. Without metrics it
does only while the log is empty. -/
def learnerCaughtUp (id : Nat) : Bool :=
  let last := observation.leaderLastLogIndex.getD 0
  match observation.replication[id]?.join with
  | some matched => decide (last - matched ≤ config.maxPromotionLag)
  | none => last == 0

def liveVoters (voters : BTreeSet Nat) : Nat :=
  BTreeSet.count observation.alive voters

def deadVoters : List Nat :=
  observation.voters.toList.filter (observation.deadPastWindow config now)

def pressuredVoters : List Nat :=
  observation.voters.toList.filter (fun id =>
    observation.pressured id && !observation.deadPastWindow config now id)

/-- Learners ready to vote, best-ranked first. -/
def ready : List Nat :=
  observation.candidates.filter (fun id =>
    observation.learners.contains id
    && observation.stableAlive config now id
    && observation.learnerCaughtUp config id)

/-- The live nodes a council could seat. -/
def pool : BTreeSet Nat :=
  BTreeSet.ofItems
    ((observation.voters.toList ++ observation.learners.toList ++ observation.candidates).filter
      observation.alive)

/-- The voter count the planner works towards. -/
def target : Nat :=
  largestOddAtMost (min observation.pool.size config.maxCouncilSize)

/-- Live voters are a majority of the next configuration too. -/
def committable (next : BTreeSet Nat) : Bool :=
  decide (majority next.size ≤ observation.liveVoters next)

def ifCommittable (action : CouncilAction) : Option CouncilAction :=
  if observation.committable (action.votersAfter observation.voters) then some action else none

/-- The voter that gives up its seat first: a dead one, else a resigning one. -/
def leavingFirst : Option Nat :=
  (observation.deadVoters config now).head?.or (observation.pressuredVoters config now).head?

/-- An even council goes back to odd: by one more voter where the live nodes allow it, otherwise
by one less. -/
def planEven : Option CouncilAction :=
  if observation.voters.size < observation.target config then
    (observation.ready config now).head?.map .promote
  else
    let leaving := (observation.leavingFirst config now).or
      (observation.voters.toList.reverse.find? (fun id => id != observation.leaderId))
    leaving.bind (fun id => observation.ifCommittable (.removeVoter id))

/-- Swap a caught-up learner in for a dead voter, then for a resigning one. -/
def planSwap : Option CouncilAction :=
  match observation.leavingFirst config now, (observation.ready config now).head? with
  | some remove, some promote => observation.ifCommittable (.replace promote remove)
  | _, _ => none

/-- Grow by two while the live nodes allow a bigger odd council. -/
def planGrowth : Option CouncilAction :=
  if observation.voters.size + 2 ≤ observation.target config then
    match observation.ready config now with
    | first :: second :: _ => some (.promotePair first second)
    | _ => none
  else none

/-- Drop two dead voters, never below the minimum size. -/
def planShrink : Option CouncilAction :=
  match observation.deadVoters config now with
  | first :: second :: _ =>
    if config.minCouncilSize ≤ observation.voters.size - 2 then
      observation.ifCommittable (.removeVoterPair first second)
    else none
  | _ => none

def planOdd : Option CouncilAction :=
  (observation.planSwap config now).or
    ((observation.planGrowth config now).or (observation.planShrink config now))

def planVoters : Option CouncilAction :=
  if observation.voters.size % 2 = 0 then observation.planEven config now
  else observation.planOdd config now

def liveLearners : Nat :=
  BTreeSet.count observation.alive observation.learners

/-- How many learners the council wants: up to the cap, less the seats that live voters who stay
hold. -/
def wantedLearners : Nat :=
  config.maxCouncilSize
  - (observation.voters.size - (observation.deadVoters config now).length
    - (observation.pressuredVoters config now).length)

/-- The best-ranked node that could join as a learner. -/
def newLearner : Option Nat :=
  observation.candidates.find? (fun id =>
    !observation.learners.contains id && !observation.voters.contains id
    && observation.stableAlive config now id)

/-- Bring in a learner, or else drop a dead one. -/
def planLearners : CouncilAction :=
  let added :=
    if observation.liveLearners < observation.wantedLearners config now then
      observation.newLearner config now
    else none
  match added with
  | some id => .addLearner id
  | none =>
    match observation.learners.toList.find? (observation.deadPastWindow config now) with
    | some id => .removeLearner id
    | none => .nothing

/-- Live voters are a majority, so that a change can commit. -/
def hasQuorum : Bool :=
  decide (majority observation.voters.size ≤ observation.liveVoters observation.voters)

end CouncilObservation

def planCouncilAction (observation : CouncilObservation) (config : CouncilSelectionConfig)
    (now : Nat)
    : CouncilAction :=
  if observation.changeInFlight then .nothing
  else if !observation.hasQuorum then .nothing
  else (observation.planVoters config now).getD (observation.planLearners config now)

-- What a plan may do to the voters

namespace CouncilObservation

variable {observation : CouncilObservation} {config : CouncilSelectionConfig} {now id : Nat}

/-- Alive for at least the candidate window. -/
def StablyAlive (observation : CouncilObservation) (config : CouncilSelectionConfig)
    (now id : Nat)
    : Prop :=
  ∃ since, observation.health[id]? = some (.alive since)
    ∧ config.candidateAliveWindow ≤ now - since

/-- Dead for at least the eviction window, and not the leader. -/
def DeadPastWindow (observation : CouncilObservation) (config : CouncilSelectionConfig)
    (now id : Nat)
    : Prop :=
  id ≠ observation.leaderId
  ∧ ∃ since, observation.health[id]? = some (.dead since) ∧ config.deadWindow ≤ now - since

theorem deadPastWindow_iff
    : observation.deadPastWindow config now id = true
      ↔ observation.DeadPastWindow config now id := by
  rw [deadPastWindow, Bool.and_eq_true, bne_iff_ne, DeadPastWindow]
  cases observation.health[id]? with
  | none => simp
  | some health => cases health <;> simp

theorem stableAlive_iff (follower : id ≠ observation.leaderId)
    : observation.stableAlive config now id = true
      ↔ observation.StablyAlive config now id := by
  rw [stableAlive, beq_false_of_ne follower, Bool.false_or, StablyAlive]
  cases observation.health[id]? with
  | none => simp
  | some health => cases health <;> simp

theorem alive_of_stableAlive (stable : observation.stableAlive config now id = true)
    : observation.alive id = true := by
  rw [stableAlive, Bool.or_eq_true] at stable
  rw [alive, Bool.or_eq_true]
  refine stable.imp_right fun alive => ?_
  cases found : observation.health[id]? with
  | none => simp [found] at alive
  | some health => cases health <;> simp_all

theorem not_alive_of_dead (dead : observation.DeadPastWindow config now id)
    : observation.alive id = false := by
  obtain ⟨follower, _, found, _⟩ := dead
  simp [alive, follower, found]

theorem pressured_iff
    : observation.pressured id = true
      ↔ id ≠ observation.leaderId ∧ id ∈ observation.diskPressured := by
  rw [pressured, Bool.and_eq_true, bne_iff_ne, mem_iff_contains]

theorem mem_deadVoters
    : id ∈ observation.deadVoters config now
      ↔ id ∈ observation.voters ∧ observation.DeadPastWindow config now id := by
  rw [deadVoters, List.mem_filter, mem_toList, deadPastWindow_iff]

theorem mem_pressuredVoters
    : id ∈ observation.pressuredVoters config now
      ↔ id ∈ observation.voters ∧ observation.pressured id = true
        ∧ observation.deadPastWindow config now id = false := by
  rw [pressuredVoters, List.mem_filter, mem_toList, Bool.and_eq_true, Bool.not_eq_true']

theorem mem_ready
    : id ∈ observation.ready config now
      ↔ id ∈ observation.candidates ∧ id ∈ observation.learners
        ∧ observation.stableAlive config now id = true
        ∧ observation.learnerCaughtUp config id = true := by
  rw [ready, List.mem_filter, Bool.and_eq_true, Bool.and_eq_true, ← mem_iff_contains, and_assoc]

theorem leavingFirst_cases (leaving : observation.leavingFirst config now = some id)
    : id ∈ observation.voters
      ∧ (observation.DeadPastWindow config now id ∨ observation.pressured id = true) := by
  rcases Option.or_eq_some_iff.mp leaving with dead | ⟨_, pressured⟩
  · obtain ⟨member, dead⟩ := mem_deadVoters.mp (List.mem_of_head? dead)
    exact ⟨member, .inl dead⟩
  · obtain ⟨member, pressured, _⟩ := mem_pressuredVoters.mp (List.mem_of_head? pressured)
    exact ⟨member, .inr pressured⟩

theorem leavingFirst_ne_leader (leaving : observation.leavingFirst config now = some id)
    : id ≠ observation.leaderId := by
  rcases (leavingFirst_cases leaving).2 with dead | pressured
  · exact dead.1
  · exact (pressured_iff.mp pressured).1

inductive VoterChange (observation : CouncilObservation) (config : CouncilSelectionConfig)
    (now : Nat)
    : CouncilAction → Prop
  | promote (id : Nat) (even : observation.voters.size % 2 = 0)
    (below : observation.voters.size < observation.target config)
    (isReady : id ∈ observation.ready config now)
    : VoterChange observation config now (.promote id)
  | promotePair (first second : Nat) (odd : observation.voters.size % 2 ≠ 0)
    (below : observation.voters.size + 2 ≤ observation.target config)
    (areReady : ∃ rest, observation.ready config now = first :: second :: rest)
    : VoterChange observation config now (.promotePair first second)
  | replace (promote remove : Nat) (odd : observation.voters.size % 2 ≠ 0)
    (leaving : observation.leavingFirst config now = some remove)
    (first : (observation.ready config now).head? = some promote)
    (commits : observation.committable
      ((CouncilAction.replace promote remove).votersAfter observation.voters) = true)
    : VoterChange observation config now (.replace promote remove)
  | removeVoter (id : Nat) (even : observation.voters.size % 2 = 0)
    (full : observation.target config ≤ observation.voters.size)
    (member : id ∈ observation.voters) (follower : id ≠ observation.leaderId)
    (commits : observation.committable
      ((CouncilAction.removeVoter id).votersAfter observation.voters) = true)
    : VoterChange observation config now (.removeVoter id)
  | removeVoterPair (first second : Nat) (odd : observation.voters.size % 2 ≠ 0)
    (areDead : ∃ rest, observation.deadVoters config now = first :: second :: rest)
    (remain : config.minCouncilSize ≤ observation.voters.size - 2)
    (commits : observation.committable
      ((CouncilAction.removeVoterPair first second).votersAfter observation.voters) = true)
    : VoterChange observation config now (.removeVoterPair first second)

variable {action : CouncilAction}

theorem ifCommittable_eq_some {planned : CouncilAction}
    : observation.ifCommittable action = some planned
      ↔ observation.committable (action.votersAfter observation.voters) = true
        ∧ action = planned := by
  rw [ifCommittable]
  split <;> simp_all

theorem planEven_change (even : observation.voters.size % 2 = 0)
    (planned : observation.planEven config now = some action)
    : VoterChange observation config now action := by
  rw [planEven] at planned
  split at planned
  · rename_i below
    obtain ⟨id, first, rfl⟩ := Option.map_eq_some_iff.mp planned
    exact .promote id even below (List.mem_of_head? first)
  rename_i full
  obtain ⟨id, leaving, planned⟩ := Option.bind_eq_some_iff.mp planned
  obtain ⟨commits, rfl⟩ := ifCommittable_eq_some.mp planned
  rcases Option.or_eq_some_iff.mp leaving with first | ⟨_, last⟩
  · exact .removeVoter id even (Nat.le_of_not_lt full) (leavingFirst_cases first).1
      (leavingFirst_ne_leader first) commits
  have listed := List.mem_of_find?_eq_some last
  rw [List.mem_reverse, mem_toList] at listed
  have follower := (List.find?_eq_some_iff_append.mp last).1
  exact .removeVoter id even (Nat.le_of_not_lt full) listed (bne_iff_ne.mp follower) commits

section

variable (odd : observation.voters.size % 2 ≠ 0)
include odd

theorem planSwap_change (planned : observation.planSwap config now = some action)
    : VoterChange observation config now action := by
  rw [planSwap] at planned
  split at planned
  · rename_i remove promote leaving first
    obtain ⟨commits, rfl⟩ := ifCommittable_eq_some.mp planned
    exact .replace promote remove odd leaving first commits
  · cases planned

theorem planGrowth_change (planned : observation.planGrowth config now = some action)
    : VoterChange observation config now action := by
  rw [planGrowth] at planned
  split at planned
  · rename_i below
    split at planned
    · rename_i first second rest areReady
      cases planned
      exact .promotePair first second odd below ⟨rest, areReady⟩
    · cases planned
  · cases planned

theorem planShrink_change (planned : observation.planShrink config now = some action)
    : VoterChange observation config now action := by
  rw [planShrink] at planned
  split at planned
  · rename_i first second rest areDead
    split at planned
    · rename_i remain
      obtain ⟨commits, rfl⟩ := ifCommittable_eq_some.mp planned
      exact .removeVoterPair first second odd ⟨rest, areDead⟩ remain commits
    · cases planned
  · cases planned

end

/-- Every change of the voters is one of the five, under its guards. -/
theorem planVoters_change (planned : observation.planVoters config now = some action)
    : VoterChange observation config now action := by
  rw [planVoters] at planned
  split at planned
  · next even => exact planEven_change even planned
  rename_i odd
  rcases Option.or_eq_some_iff.mp planned with swap | ⟨_, rest⟩
  · exact planSwap_change odd swap
  rcases Option.or_eq_some_iff.mp rest with growth | ⟨_, shrink⟩
  · exact planGrowth_change odd growth
  · exact planShrink_change odd shrink

/-- The planner keeps the voters, or changes them while live voters are a majority. -/
theorem plan_cases (observation : CouncilObservation) (config : CouncilSelectionConfig)
    (now : Nat)
    : (observation.hasQuorum = true
        ∧ VoterChange observation config now (planCouncilAction observation config now))
      ∨ (∃ id, planCouncilAction observation config now = .addLearner id)
      ∨ (∃ id, planCouncilAction observation config now = .removeLearner id)
      ∨ planCouncilAction observation config now = .nothing := by
  rw [planCouncilAction]
  split
  · exact .inr (.inr (.inr rfl))
  split
  · exact .inr (.inr (.inr rfl))
  rename_i quorum
  rw [Bool.not_eq_true', Bool.not_eq_false] at quorum
  cases planned : observation.planVoters config now with
  | some action => exact .inl ⟨quorum, planVoters_change planned⟩
  | none =>
    rw [Option.getD_none, planLearners]
    split
    · exact .inr (.inl ⟨_, rfl⟩)
    split
    · exact .inr (.inr (.inl ⟨_, rfl⟩))
    · exact .inr (.inr (.inr rfl))

end CouncilObservation

end Reliaburger
