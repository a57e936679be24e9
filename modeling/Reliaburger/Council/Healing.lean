import Reliaburger.Council.State
import Reliaburger.Council.Selection

/-! The council planner never loses the council: whatever it observed, a change of the voters it
plans keeps the leader, can be committed by live voters and lands on an odd council. The reconciler
over a steady cluster: each tick ranks the spare nodes against the voters gossip still lists, plans
one action and applies it to the membership.
-/

namespace Reliaburger

open BTreeSet CouncilAction

namespace CouncilAction

/-- The learners an action seats. -/
def promoted : CouncilAction → List Nat
  | .promote id => [id]
  | .promotePair first second => [first, second]
  | .replace incoming _ => [incoming]
  | _ => []

/-- The voters an action takes out. -/
def removed : CouncilAction → List Nat
  | .replace _ outgoing => [outgoing]
  | .removeVoter id => [id]
  | .removeVoterPair first second => [first, second]
  | _ => []

variable {action : CouncilAction} {voters : BTreeSet Nat} {id : Nat}

theorem mem_votersAfter
    : id ∈ action.votersAfter voters
      ↔ id ∉ action.removed ∧ (id ∈ action.promoted ∨ id ∈ voters) := by
  cases action
  all_goals
    simp only [votersAfter, promoted, removed, mem_insert, mem_erase,
      List.mem_cons, List.not_mem_nil]
    tauto

theorem removed_of_gone (member : id ∈ voters) (gone : id ∉ action.votersAfter voters)
    : id ∈ action.removed := by
  by_contra stays
  exact gone (mem_votersAfter.mpr ⟨stays, .inr member⟩)

/-- The action seats nodes that do not vote and takes out nodes that do. -/
structure Exchanges (action : CouncilAction) (voters : BTreeSet Nat) : Prop where
  spare : ∀ id ∈ action.promoted, id ∉ voters
  voter : ∀ id ∈ action.removed, id ∈ voters
  promoted : action.promoted.Nodup
  removed : action.removed.Nodup

theorem Exchanges.perm (exchanges : action.Exchanges voters)
    : ((action.votersAfter voters).toList ++ action.removed).Perm
        (action.promoted ++ voters.toList) := by
  apply (List.perm_ext_iff_of_nodup _ _).mpr
  · intro id
    have voter := exchanges.voter id
    have spare := exchanges.spare id
    rw [List.mem_append, List.mem_append, Std.ExtTreeSet.mem_toList, Std.ExtTreeSet.mem_toList,
      mem_votersAfter]
    tauto
  · refine (nodup_toList _).append exchanges.removed fun id member gone => ?_
    exact (mem_votersAfter.mp (Std.ExtTreeSet.mem_toList.mp member)).1 gone
  · refine exchanges.promoted.append (nodup_toList _) fun id listed member => ?_
    exact exchanges.spare id listed (Std.ExtTreeSet.mem_toList.mp member)

theorem Exchanges.size (exchanges : action.Exchanges voters)
    : (action.votersAfter voters).size + action.removed.length
      = action.promoted.length + voters.size := by
  rw [size_eq_length, size_eq_length, ← List.length_append,
    ← List.length_append, exchanges.perm.length_eq]

theorem Exchanges.count (exchanges : action.Exchanges voters) (p : Nat → Bool)
    : BTreeSet.count p (action.votersAfter voters) + action.removed.countP p
      = action.promoted.countP p + BTreeSet.count p voters := by
  rw [BTreeSet.count, BTreeSet.count, ← List.countP_append, ← List.countP_append,
    exchanges.perm.countP_eq]

end CouncilAction

namespace CouncilObservation

variable {observation : CouncilObservation} {config : CouncilSelectionConfig} {now id : Nat}

-- Safety of one plan

/-- What the reconciler passes: learners do not vote, the leader does, and the candidates are
distinct nodes that do not. -/
structure WellFormed (observation : CouncilObservation) : Prop where
  disjoint : ∀ id ∈ observation.voters, id ∉ observation.learners
  leader : observation.leaderId ∈ observation.voters
  distinct : observation.candidates.Nodup
  spare : ∀ id ∈ observation.candidates, id ∉ observation.voters

/-- A learner that may vote: stably alive and caught up. -/
structure Promotable (observation : CouncilObservation) (config : CouncilSelectionConfig)
    (now id : Nat)
    : Prop where
  learner : id ∈ observation.learners
  stable : observation.StablyAlive config now id
  caughtUp : observation.learnerCaughtUp config id = true

/-- What holds of a change of the voters from `observation.voters` to `next`. -/
structure SafeChange (observation : CouncilObservation) (config : CouncilSelectionConfig)
    (now : Nat) (next : BTreeSet Nat)
    : Prop where
  leader : observation.leaderId ∈ next
  commits : majority next.size ≤ observation.liveVoters next
  odd : next.size % 2 = 1
  capped : observation.voters.size < next.size → next.size ≤ max 1 config.maxCouncilSize
  promoted : ∀ id ∈ next, id ∉ observation.voters → observation.Promotable config now id
  removed
    : ∀ id ∈ observation.voters,
        id ∉ next
        → observation.alive id = true
        → observation.pressured id = false
        → observation.voters.size % 2 = 0

theorem largestOddAtMost_le {count : Nat} (above : 1 < largestOddAtMost count)
    : largestOddAtMost count ≤ count := by
  rcases count with _ | _ | _
  · exact absurd above (by decide)
  · exact Nat.le_refl 1
  · simp only [largestOddAtMost]
    split <;> omega

theorem target_le_cap (above : 1 < observation.target config)
    : observation.target config ≤ config.maxCouncilSize :=
  (largestOddAtMost_le above).trans (Nat.min_le_right _ _)

theorem deadVoters_nodup : (observation.deadVoters config now).Nodup :=
  (nodup_toList observation.voters).filter _

section WellFormed

variable (wellFormed : observation.WellFormed)

include wellFormed

theorem WellFormed.promotable (isReady : id ∈ observation.ready config now)
    : observation.Promotable config now id ∧ id ∉ observation.voters
      ∧ observation.alive id = true := by
  obtain ⟨candidate, learner, stable, caughtUp⟩ := mem_ready.mp isReady
  have spare := wellFormed.spare id candidate
  have follower : id ≠ observation.leaderId := fun same => spare (same ▸ wellFormed.leader)
  exact ⟨⟨learner, (stableAlive_iff follower).mp stable, caughtUp⟩, spare,
    alive_of_stableAlive stable⟩

theorem WellFormed.voters_pos : 0 < observation.voters.size := by
  have whole := size_erase_member wellFormed.leader
  omega

end WellFormed

variable {action : CouncilAction}

/-- A change commits where it does not take out more voters than a majority can spare. -/
theorem committable_of_exchanges (quorum : observation.hasQuorum = true)
    (exchanges : action.Exchanges observation.voters)
    (alive : ∀ id ∈ action.promoted, observation.alive id = true)
    (enough : (observation.voters.size + action.promoted.length - action.removed.length) / 2
        + action.removed.length
      ≤ observation.voters.size / 2 + action.promoted.length)
    : observation.committable (action.votersAfter observation.voters) = true := by
  have size := exchanges.size
  have live := exchanges.count observation.alive
  have most : action.removed.countP observation.alive ≤ action.removed.length :=
    List.countP_le_length
  rw [List.countP_eq_length.mpr alive] at live
  rw [hasQuorum, decide_eq_true_eq, majority, liveVoters] at quorum
  rw [committable, decide_eq_true_eq, majority, liveVoters]
  omega

namespace VoterChange

variable (change : VoterChange observation config now action)

include change

theorem isReady (listed : id ∈ action.promoted) : id ∈ observation.ready config now := by
  cases change with
  | promote _ _ _ isReady =>
    obtain rfl := List.mem_singleton.mp listed
    exact isReady
  | replace _ _ _ _ first =>
    obtain rfl := List.mem_singleton.mp listed
    exact List.mem_of_head? first
  | promotePair _ _ _ _ areReady =>
    obtain ⟨rest, areReady⟩ := areReady
    rw [areReady]
    exact List.mem_append_left rest listed
  | removeVoter | removeVoterPair => cases listed

/-- Only an even council takes out a voter that is neither dead nor resigning. -/
theorem removed_cases (listed : id ∈ action.removed)
    : id ∈ observation.voters ∧ id ≠ observation.leaderId
      ∧ (observation.voters.size % 2 = 0 ∨ observation.DeadPastWindow config now id
        ∨ observation.pressured id = true) := by
  cases change with
  | promote | promotePair => cases listed
  | replace _ _ _ leaving =>
    obtain rfl := List.mem_singleton.mp listed
    obtain ⟨member, leaves⟩ := leavingFirst_cases leaving
    exact ⟨member, leavingFirst_ne_leader leaving, .inr leaves⟩
  | removeVoter _ even _ member follower =>
    obtain rfl := List.mem_singleton.mp listed
    exact ⟨member, follower, .inl even⟩
  | removeVoterPair _ _ _ areDead =>
    obtain ⟨rest, areDead⟩ := areDead
    have among : id ∈ observation.deadVoters config now := by
      rw [areDead]
      exact List.mem_append_left rest listed
    obtain ⟨member, dead⟩ := mem_deadVoters.mp among
    exact ⟨member, dead.1, .inr (.inl dead)⟩

theorem exchanges (wellFormed : observation.WellFormed)
    : action.Exchanges observation.voters where
  spare _ listed := (wellFormed.promotable (change.isReady listed)).2.1
  voter _ listed := (change.removed_cases listed).1
  promoted := by
    cases change with
    | promotePair _ _ _ _ areReady =>
      obtain ⟨rest, areReady⟩ := areReady
      have distinct : (observation.ready config now).Nodup := wellFormed.distinct.filter _
      rw [areReady] at distinct
      exact (List.sublist_append_left [_, _] rest).nodup distinct
    | _ => simp [promoted]
  removed := by
    cases change with
    | removeVoterPair _ _ _ areDead =>
      obtain ⟨rest, areDead⟩ := areDead
      have distinct := @deadVoters_nodup observation config now
      rw [areDead] at distinct
      exact (List.sublist_append_left [_, _] rest).nodup distinct
    | _ => simp [removed]

/-- Every change of the voters is safe. -/
theorem safe (wellFormed : observation.WellFormed) (quorum : observation.hasQuorum = true)
    : observation.SafeChange config now (action.votersAfter observation.voters) := by
  have exchanges := change.exchanges wellFormed
  have size := exchanges.size
  have alive (id : Nat) (listed : id ∈ action.promoted) : observation.alive id = true :=
    (wellFormed.promotable (change.isReady listed)).2.2
  have positive := wellFormed.voters_pos
  have cap := @target_le_cap observation config
  refine ⟨?_, ?_, ?_, fun grew => ?_, fun id member absent => ?_,
    fun id member gone alive calm => ?_⟩
  · refine mem_votersAfter.mpr ⟨fun listed => ?_, .inr wellFormed.leader⟩
    exact (change.removed_cases listed).2.1 rfl
  · cases change with
    | promote | promotePair =>
      refine of_decide_eq_true (committable_of_exchanges quorum exchanges alive ?_)
      simp only [promoted, removed, List.length_cons, List.length_nil]
      omega
    | replace _ _ _ _ _ commits | removeVoter _ _ _ _ _ commits
    | removeVoterPair _ _ _ _ _ commits => exact of_decide_eq_true commits
  · cases change
    all_goals
      simp only [promoted, removed, List.length_cons, List.length_nil] at size
      omega
  · cases change
    all_goals
      simp only [promoted, removed, List.length_cons, List.length_nil] at size
      omega
  · have listed := (mem_votersAfter.mp member).2.resolve_right absent
    exact (wellFormed.promotable (change.isReady listed)).1
  · have listed := removed_of_gone member gone
    rcases (change.removed_cases listed).2.2 with even | dead | pressured
    · exact even
    · rw [not_alive_of_dead dead] at alive
      cases alive
    · rw [pressured] at calm
      cases calm

/-- The change of the voters that swaps one learner in replaces a dead or resigning voter. -/
theorem swapped {incoming outgoing : Nat}
    (gained : incoming ∈ action.votersAfter observation.voters)
    (wasSpare : incoming ∉ observation.voters) (member : outgoing ∈ observation.voters)
    (lost : outgoing ∉ action.votersAfter observation.voters)
    : observation.DeadPastWindow config now outgoing
      ∨ outgoing ∈ observation.diskPressured := by
  have listed := (mem_votersAfter.mp gained).2.resolve_right wasSpare
  have gone := removed_of_gone member lost
  cases change with
  | promote | promotePair => cases gone
  | removeVoter | removeVoterPair => cases listed
  | replace _ _ _ leaving =>
    obtain rfl := List.mem_singleton.mp gone
    exact (leavingFirst_cases leaving).2.imp_right fun pressured =>
      (pressured_iff.mp pressured).2

/-- Only a pair of dead voters leaves at once. -/
theorem droppedPair {first second : Nat} (wellFormed : observation.WellFormed)
    (member : first ∈ observation.voters) (member' : second ∈ observation.voters)
    (different : first ≠ second) (lost : first ∉ action.votersAfter observation.voters)
    (lost' : second ∉ action.votersAfter observation.voters)
    : observation.DeadPastWindow config now first ∧ observation.DeadPastWindow config now second
      ∧ config.minCouncilSize ≤ (action.votersAfter observation.voters).size := by
  have size := (change.exchanges wellFormed).size
  have gone := removed_of_gone member lost
  have gone' := removed_of_gone member' lost'
  cases change with
  | promote | promotePair => cases gone
  | replace | removeVoter =>
    exact absurd ((List.mem_singleton.mp gone).trans (List.mem_singleton.mp gone').symm) different
  | removeVoterPair one two odd areDead remain =>
    obtain ⟨rest, areDead⟩ := areDead
    have dead {id : Nat} (listed : id ∈ [one, two])
        : observation.DeadPastWindow config now id :=
      (mem_deadVoters.mp (areDead ▸ List.mem_append_left rest listed)).2
    refine ⟨dead gone, dead gone', ?_⟩
    simp only [promoted, removed, List.length_cons, List.length_nil] at size
    omega

end VoterChange

end CouncilObservation

open CouncilObservation in
/-- Safety of the planner, for every observation of the shape the reconciler passes. -/
theorem plan_council_action_safe (observation : CouncilObservation)
    (config : CouncilSelectionConfig) (now : Nat) (wellFormed : observation.WellFormed)
    : let next := (planCouncilAction observation config now).votersAfter observation.voters
      observation.leaderId ∈ next
      ∧ (next ≠ observation.voters
        → majority observation.voters.size ≤ observation.liveVoters observation.voters
          ∧ majority next.size ≤ observation.liveVoters next
          ∧ next.size % 2 = 1
          ∧ (observation.voters.size < next.size → next.size ≤ max 1 config.maxCouncilSize))
      ∧ (∀ id ∈ next, id ∉ observation.voters → observation.Promotable config now id)
      ∧ (∀ incoming ∈ next, incoming ∉ observation.voters
        → ∀ outgoing ∈ observation.voters, outgoing ∉ next
          → observation.DeadPastWindow config now outgoing
            ∨ outgoing ∈ observation.diskPressured)
      ∧ (∀ id ∈ observation.voters, id ∉ next → observation.alive id = true
        → id ∉ observation.diskPressured → observation.voters.size % 2 = 0)
      ∧ (∀ first ∈ observation.voters, ∀ second ∈ observation.voters, first ≠ second
        → first ∉ next → second ∉ next
          → observation.DeadPastWindow config now first
            ∧ observation.DeadPastWindow config now second
            ∧ config.minCouncilSize ≤ next.size) := by
  intro next
  rcases plan_cases observation config now with ⟨quorum, change⟩ | others
  · have safe : observation.SafeChange config now next := change.safe wellFormed quorum
    refine ⟨safe.leader, fun _ => ⟨of_decide_eq_true quorum, safe.commits, safe.odd, safe.capped⟩,
      safe.promoted, ?_, ?_, ?_⟩
    · intro incoming gained wasSpare outgoing member lost
      exact change.swapped gained wasSpare member lost
    · intro id member lost alive calm
      refine safe.removed id member lost alive ?_
      rw [← Bool.not_eq_true, pressured_iff]
      exact fun pressured => calm pressured.2
    · intro first member second member' different lost lost'
      exact change.droppedPair wellFormed member member' different lost lost'
  · have kept : next = observation.voters := by
      rcases others with ⟨id, plan⟩ | ⟨id, plan⟩ | plan
      all_goals
        show votersAfter _ _ = _
        rw [plan]
        rfl
    rw [kept]
    refine ⟨wellFormed.leader, fun changed => absurd rfl changed, ?_, ?_, ?_, ?_⟩
    · exact fun id member absent => absurd member absent
    · exact fun id member absent => absurd member absent
    · exact fun id member lost => absurd member lost
    · exact fun first member _ _ _ lost => absurd member lost

/-- Three voters, one of them dead, and a learner that has caught up. -/
def shortCouncil : CouncilObservation where
  voters := BTreeSet.ofItems [1, 2, 3]
  learners := BTreeSet.ofItems [4]
  leaderId := 1
  health := (((∅ : BTreeMap Nat MemberHealth).insert 2 (.alive 0)).insert 3 (.dead 0)).insert 4
    (.alive 0)
  candidates := [4]
  leaderLastLogIndex := some 10
  replication := (∅ : BTreeMap Nat (Option Nat)).insert 4 (some 10)
  changeInFlight := false
  diskPressured := ∅

/-- The learner is swapped in for the dead voter, and may vote. -/
theorem shortCouncil_swaps
    : planCouncilAction shortCouncil .default 60000000000 = .replace 4 3
      ∧ shortCouncil.Promotable .default 60000000000 4 := by
  have wellFormed : shortCouncil.WellFormed := by
    refine ⟨?_, by decide, by decide, ?_⟩
    · intro id member
      rw [shortCouncil, mem_ofItems] at member
      rw [shortCouncil, mem_ofItems]
      revert id
      decide
    · intro id listed
      obtain rfl := List.mem_singleton.mp listed
      decide
  have plan : planCouncilAction shortCouncil .default 60000000000 = .replace 4 3 := by
    decide +kernel
  refine ⟨plan, (plan_council_action_safe shortCouncil .default 60000000000 wellFormed).2.2.1 4
    ?_ (by decide)⟩
  rw [plan]
  decide

-- Gossip members and the ranking of spares

inductive NodeState where
  | alive
  | suspect
  | dead
  | left
deriving DecidableEq, Repr

structure ResourceSummary where
  cpuCapacityMillicores : Nat
  cpuUsedMillicores : Nat
  memoryCapacityMb : Nat
  memoryUsedMb : Nat
deriving DecidableEq, Repr

structure MembershipSnapshot where
  nodeId : String
  state : NodeState
  labels : BTreeMap String String
  firstSeen : Nat
  /-- Not gossiped for remote nodes, so absent means eligible. -/
  resources : Option ResourceSummary
deriving DecidableEq

def ResourceSummary.withinThresholds (resources : ResourceSummary)
    (config : CouncilSelectionConfig)
    : Bool :=
  decide (0 < resources.cpuCapacityMillicores) && decide (0 < resources.memoryCapacityMb)
  && config.cpuWithin resources.cpuUsedMillicores resources.cpuCapacityMillicores
  && config.memoryWithin resources.memoryUsedMb resources.memoryCapacityMb

namespace MembershipSnapshot

def raftId (member : MembershipSnapshot) : Nat :=
  raftIdFromName member.nodeId

variable (config : CouncilSelectionConfig)

/-- Alive, old enough and within the resource thresholds. -/
def eligible (now : Nat) (member : MembershipSnapshot) : Bool :=
  member.state == .alive
  && decide (config.minNodeAge ≤ now - member.firstSeen)
  && member.resources.all (fun resources => resources.withinThresholds config)

def zone (member : MembershipSnapshot) : Option String :=
  member.labels[config.zoneLabelKey]?

def novel (councilZones : List String) (member : MembershipSnapshot) : Bool :=
  (member.zone config).any (fun zone => !councilZones.contains zone)

/-- A new zone first, then the oldest, then the smallest name. -/
def ranksBefore (councilZones : List String) (left right : MembershipSnapshot) : Bool :=
  (compare (right.novel config councilZones) (left.novel config councilZones)
    |>.then (compare left.firstSeen right.firstSeen)
    |>.then (compare left.nodeId right.nodeId)).isLE

end MembershipSnapshot

/-- Rank the eligible nodes outside the council for its free seats. -/
def selectCouncilCandidates (members : List MembershipSnapshot) (currentCouncil : List String)
    (targetSize : Nat) (config : CouncilSelectionConfig) (now : Nat)
    : List String :=
  let clamped := max config.minCouncilSize (min targetSize config.maxCouncilSize)
  let needed := clamped - currentCouncil.length
  if needed = 0 then []
  else
    let councilZones := currentCouncil.filterMap (fun id =>
      (members.find? (fun member => member.nodeId == id)).bind (·.zone config))
    let candidates := members.filter (fun member =>
      member.eligible config now && !currentCouncil.contains member.nodeId)
    let ranked := candidates.insertionSort (fun left right : MembershipSnapshot =>
      left.ranksBefore config councilZones right)
    (ranked.take needed).map (·.nodeId)

-- The reconciler

/-- What the reconciler sees on every tick of a steady cluster. -/
structure Reconciler where
  members : List MembershipSnapshot
  leaderName : String
  /-- The nodes that advertise disk pressure. -/
  diskPressured : List String
  config : CouncilSelectionConfig
  now : Nat
  /-- When the health tracker last saw a node change state. -/
  since : Nat → Nat
  lastLogIndex : Option Nat
  /-- The matched log index of a learner. -/
  matched : Nat → Option Nat

structure Seats where
  voters : BTreeSet Nat
  learners : BTreeSet Nat
deriving DecidableEq

/-- The membership after the action lands. A voter that leaves does not stay on as a learner. -/
def CouncilAction.seatsAfter (action : CouncilAction) (seats : Seats) : Seats where
  voters := action.votersAfter seats.voters
  learners :=
    match action with
    | .addLearner id => seats.learners.insert id
    | .promote id => seats.learners.erase id
    | .promotePair first second => (seats.learners.erase first).erase second
    | .replace incoming _ => seats.learners.erase incoming
    | .removeLearner id => seats.learners.erase id
    | .removeVoter _ | .removeVoterPair _ _ | .nothing => seats.learners

namespace Reconciler

variable (reconciler : Reconciler)

def leaderId : Nat :=
  raftIdFromName reconciler.leaderName

/-- The name and state behind a Raft id: this node itself, always alive, or the first gossip
member with that id. -/
def directory (id : Nat) : Option (String × NodeState) :=
  if id = reconciler.leaderId then some (reconciler.leaderName, .alive)
  else (reconciler.members.find? (fun member => member.raftId == id)).map
    (fun member => (member.nodeId, member.state))

/-- The voters gossip can still see. -/
def presentVoters (voters : BTreeSet Nat) : List String :=
  voters.toList.filterMap (fun id => (reconciler.directory id).map Prod.fst)

def candidates (voters : BTreeSet Nat) : List Nat :=
  (selectCouncilCandidates reconciler.members (reconciler.presentVoters voters)
    reconciler.config.maxCouncilSize reconciler.config reconciler.now).map raftIdFromName

/-- A node that left, or that gossip dropped, counts as dead. -/
def healthOf (id : Nat) : MemberHealth :=
  match (reconciler.directory id).map Prod.snd with
  | some .alive => .alive (reconciler.since id)
  | some .suspect => .suspect
  | some .dead | some .left | none => .dead (reconciler.since id)

variable (seats : Seats)

/-- Everyone the planner may reason about. -/
def tracked : List Nat :=
  seats.voters.toList ++ seats.learners.toList ++ reconciler.candidates seats.voters

def pressuredVoterIds (voters : BTreeSet Nat) : BTreeSet Nat :=
  BTreeSet.ofItems ((reconciler.diskPressured.map raftIdFromName).filter voters.contains)

def observation : CouncilObservation where
  voters := seats.voters
  learners := seats.learners
  leaderId := reconciler.leaderId
  health := (reconciler.tracked seats).foldl
    (fun health id => health.insert id (reconciler.healthOf id)) ∅
  candidates := reconciler.candidates seats.voters
  leaderLastLogIndex := reconciler.lastLogIndex
  replication := seats.learners.toList.foldl
    (fun replication id => replication.insert id (reconciler.matched id)) ∅
  changeInFlight := false
  diskPressured := reconciler.pressuredVoterIds seats.voters

def plan : CouncilAction :=
  planCouncilAction (reconciler.observation seats) reconciler.config reconciler.now

def tick : Seats :=
  (reconciler.plan seats).seatsAfter seats

/-- The sizes are in order, every health window has elapsed and every learner is caught up. -/
structure Steady : Prop where
  sizes : reconciler.config.minCouncilSize ≤ reconciler.config.maxCouncilSize
  deadWindow : ∀ id, reconciler.config.deadWindow ≤ reconciler.now - reconciler.since id
  aliveWindow
    : ∀ id, reconciler.config.candidateAliveWindow ≤ reconciler.now - reconciler.since id
  caughtUp
    : ∀ seats, ∀ id ∈ seats.learners,
        (reconciler.observation seats).learnerCaughtUp reconciler.config id = true

/-- A membership the leader plans for: the leader votes, learners do not, and live voters are a
majority. -/
structure Seated (seats : Seats) : Prop where
  leader : reconciler.leaderId ∈ seats.voters
  disjoint : ∀ id ∈ seats.voters, id ∉ seats.learners
  quorum : (reconciler.observation seats).hasQuorum = true

/-- No voter is dead past the window or resigning while a node could take its seat. -/
def Healed : Prop :=
  ∀ id ∈ seats.voters,
    (reconciler.observation seats).deadPastWindow reconciler.config reconciler.now id = true
      ∨ (reconciler.observation seats).pressured id = true
    → ∀ member ∈ reconciler.members,
        member.eligible reconciler.config reconciler.now = true
        → member.raftId ∉ seats.voters
        → member.nodeId ∈ reconciler.diskPressured

/-- After finitely many ticks the planner answers nothing forever, with the council healed. -/
def Converges (start : Seats) : Prop :=
  ∃ count, ∀ later, count ≤ later
    → reconciler.plan (reconciler.tick^[later] start) = .nothing
      ∧ reconciler.Healed (reconciler.tick^[later] start)

end Reconciler

-- Who is a candidate

variable {members : List MembershipSnapshot}

theorem mem_selectCouncilCandidates {currentCouncil : List String} {targetSize : Nat}
    {config : CouncilSelectionConfig} {now : Nat} {name : String}
    (listed : name ∈ selectCouncilCandidates members currentCouncil targetSize config now)
    : ∃ member ∈ members, member.eligible config now = true
        ∧ name ∉ currentCouncil ∧ member.nodeId = name := by
  rw [selectCouncilCandidates] at listed
  dsimp only at listed
  split at listed
  · cases listed
  obtain ⟨member, taken, rfl⟩ := List.mem_map.mp listed
  have ranked := (List.mem_insertionSort _).mp (List.mem_of_mem_take taken)
  obtain ⟨gossiped, passes⟩ := List.mem_filter.mp ranked
  simp only [Bool.and_eq_true, Bool.not_eq_true', List.contains_eq_mem,
    decide_eq_false_iff_not] at passes
  exact ⟨member, gossiped, passes.1, passes.2, rfl⟩

/-- With a free seat and an eligible node outside the council, someone is selected. -/
theorem selectCouncilCandidates_ne_nil {currentCouncil : List String}
    {config : CouncilSelectionConfig} {now : Nat} {member : MembershipSnapshot}
    (room : currentCouncil.length < config.maxCouncilSize) (gossiped : member ∈ members)
    (eligible : member.eligible config now = true) (outside : member.nodeId ∉ currentCouncil)
    : selectCouncilCandidates members currentCouncil config.maxCouncilSize config now ≠ [] := by
  have needed
      : max config.minCouncilSize (min config.maxCouncilSize config.maxCouncilSize)
        - currentCouncil.length ≠ 0 := by
    rw [Nat.min_self]
    omega
  rw [selectCouncilCandidates]
  dsimp only
  rw [if_neg needed, Ne, List.map_eq_nil_iff, List.take_eq_nil_iff, not_or]
  refine ⟨needed, fun none => ?_⟩
  have outsiders := List.perm_nil.mp (none ▸ (List.perm_insertionSort _ _).symm)
  refine List.eq_nil_iff_forall_not_mem.mp outsiders member
    (List.mem_filter.mpr ⟨gossiped, ?_⟩)
  rw [eligible, List.contains_eq_mem, decide_eq_false outside]
  rfl

/-- Candidates with distinct Raft ids are listed once. -/
theorem nodup_selectCouncilCandidates (distinct : (members.map MembershipSnapshot.raftId).Nodup)
    (currentCouncil : List String) (targetSize : Nat) (config : CouncilSelectionConfig) (now : Nat)
    : ((selectCouncilCandidates members currentCouncil targetSize config now).map
        raftIdFromName).Nodup := by
  rw [selectCouncilCandidates]
  dsimp only
  split
  · exact List.nodup_nil
  rw [List.map_map]
  refine ((List.take_sublist _ _).map _).nodup ?_
  refine ((List.perm_insertionSort _ _).map _).nodup_iff.mpr ?_
  exact ((List.filter_sublist).map MembershipSnapshot.raftId).nodup distinct

end Reliaburger
