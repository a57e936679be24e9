import Reliaburger.Council.Healing

/-! What one tick of healing does in a steady cluster. Every tick that changes anything, except a
swap of two nodes that would each take the other's seat back, lowers the level of the membership,
which is, in order: whether it is even, the voters that cannot return once they left, the seats left
to grow into, the voters that can, the eligible nodes outside the membership and the dead learners.
-/

namespace Reliaburger

open Std.ExtTreeSet BTreeSet CouncilAction CouncilObservation

namespace Reconciler

variable {reconciler : Reconciler} {seats : Seats} {id : Nat}

-- What the planner sees of a steady cluster

def live (reconciler : Reconciler) (id : Nat) : Bool :=
  (reconciler.directory id).any (fun entry => entry.2 == .alive)

def gone (reconciler : Reconciler) (id : Nat) : Bool :=
  !(reconciler.directory id).any (fun entry => entry.2 == .alive || entry.2 == .suspect)

/-- A node other than the leader under disk pressure. -/
def resigning (reconciler : Reconciler) (id : Nat) : Bool :=
  id != reconciler.leaderId && (reconciler.diskPressured.map raftIdFromName).contains id

def leaving (reconciler : Reconciler) (id : Nat) : Bool :=
  reconciler.gone id || reconciler.resigning id

def eligibleId (reconciler : Reconciler) (id : Nat) : Bool :=
  reconciler.members.any (fun member =>
    member.eligible reconciler.config reconciler.now && member.raftId == id)

/-- No two nodes share a Raft id. -/
structure DistinctIds (reconciler : Reconciler) : Prop where
  members : (reconciler.members.map MembershipSnapshot.raftId).Nodup
  leader
    : ∀ member ∈ reconciler.members,
        member.raftId = reconciler.leaderId → member.nodeId = reconciler.leaderName

theorem directory_leader
    : reconciler.directory reconciler.leaderId = some (reconciler.leaderName, .alive) :=
  if_pos rfl

theorem live_leader : reconciler.live reconciler.leaderId = true := by
  rw [live, directory_leader]
  rfl

theorem gone_leader : reconciler.gone reconciler.leaderId = false := by
  rw [gone, directory_leader]
  rfl

theorem gone_of_live (isLive : reconciler.live id = true) : reconciler.gone id = false := by
  rw [live, Option.any_eq_true] at isLive
  obtain ⟨_, found, alive⟩ := isLive
  rw [gone, found, Option.any_some, alive]
  rfl

theorem health_tracked (isTracked : id ∈ reconciler.tracked seats)
    : (reconciler.observation seats).health[id]? = some (reconciler.healthOf id) := by
  obtain ⟨_, _, rfl, found⟩
      : ∃ item ∈ reconciler.tracked seats, item = id
        ∧ (reconciler.observation seats).health[id]? = some (reconciler.healthOf item) :=
    BTreeMap.get_foldl_insert_of_mem ⟨id, isTracked, rfl⟩ ∅
  exact found

theorem alive_tracked (isTracked : id ∈ reconciler.tracked seats)
    : (reconciler.observation seats).alive id = reconciler.live id := by
  rw [alive, health_tracked isTracked]
  by_cases leader : id = reconciler.leaderId
  · subst leader
    rw [live_leader]
    simp [observation]
  · rw [show (id == (reconciler.observation seats).leaderId) = false from beq_false_of_ne leader,
      Bool.false_or, healthOf, live]
    cases reconciler.directory id with
    | none => rfl
    | some entry =>
      obtain ⟨_, state⟩ := entry
      cases state <;> rfl

section Steady

variable (steady : reconciler.Steady)

include steady

theorem stableAlive_tracked (isTracked : id ∈ reconciler.tracked seats)
    : (reconciler.observation seats).stableAlive reconciler.config reconciler.now id
      = reconciler.live id := by
  rw [stableAlive, health_tracked isTracked]
  by_cases leader : id = reconciler.leaderId
  · subst leader
    rw [live_leader]
    simp [observation]
  rw [show (id == (reconciler.observation seats).leaderId) = false from beq_false_of_ne leader,
    Bool.false_or, healthOf, live]
  have window := steady.aliveWindow id
  cases reconciler.directory id with
  | none => rfl
  | some entry =>
    obtain ⟨_, state⟩ := entry
    cases state
    case alive => exact decide_eq_true window
    all_goals rfl

theorem deadPastWindow_tracked (isTracked : id ∈ reconciler.tracked seats)
    : (reconciler.observation seats).deadPastWindow reconciler.config reconciler.now id
      = reconciler.gone id := by
  rw [deadPastWindow, health_tracked isTracked]
  by_cases leader : id = reconciler.leaderId
  · subst leader
    rw [gone_leader]
    simp [observation]
  rw [show (id != (reconciler.observation seats).leaderId) = true from bne_iff_ne.mpr leader,
    Bool.true_and, healthOf, gone]
  have window := steady.deadWindow id
  cases reconciler.directory id with
  | none => exact decide_eq_true window
  | some entry =>
    obtain ⟨_, state⟩ := entry
    cases state
    case alive | suspect => rfl
    all_goals exact decide_eq_true window

end Steady

theorem tracked_of_voter (member : id ∈ seats.voters) : id ∈ reconciler.tracked seats :=
  List.mem_append_left _ (List.mem_append_left _ (mem_toList.mpr member))

theorem tracked_of_learner (member : id ∈ seats.learners) : id ∈ reconciler.tracked seats :=
  List.mem_append_left _ (List.mem_append_right _ (mem_toList.mpr member))

theorem pressured_voter (member : id ∈ seats.voters)
    : (reconciler.observation seats).pressured id = reconciler.resigning id := by
  rw [pressured, resigning]
  congr 1
  rw [Bool.eq_iff_iff, ← mem_iff_contains, List.contains_iff_mem]
  show id ∈ reconciler.pressuredVoterIds seats.voters ↔ _
  rw [pressuredVoterIds, mem_ofItems, List.mem_filter]
  exact and_iff_left (mem_iff_contains.mp member)

-- Who is a candidate

theorem eligible_alive {member : MembershipSnapshot}
    (eligible : member.eligible reconciler.config reconciler.now = true)
    : member.state = .alive := by
  rw [MembershipSnapshot.eligible, Bool.and_eq_true, Bool.and_eq_true, beq_iff_eq] at eligible
  exact eligible.1.1

section Distinct

variable (distinct : reconciler.DistinctIds)

include distinct

theorem directory_of_member {member : MembershipSnapshot} (gossiped : member ∈ reconciler.members)
    (follower : member.raftId ≠ reconciler.leaderId)
    : reconciler.directory member.raftId = some (member.nodeId, member.state) := by
  rw [directory, if_neg follower]
  have found
      : (reconciler.members.find? (fun other => other.raftId == member.raftId)).isSome = true := by
    rw [List.find?_isSome]
    exact ⟨member, gossiped, beq_self_eq_true _⟩
  obtain ⟨_, found⟩ := Option.isSome_iff_exists.mp found
  have same := (List.find?_eq_some_iff_append.mp found).1
  obtain rfl := List.inj_on_of_nodup_map distinct.members (List.mem_of_find?_eq_some found)
    gossiped (beq_iff_eq.mp same)
  rw [found]
  rfl

theorem outside_of_present {member : MembershipSnapshot} (gossiped : member ∈ reconciler.members)
    : member.nodeId ∈ reconciler.presentVoters seats.voters ∨ member.raftId ∉ seats.voters := by
  by_cases votes : member.raftId ∈ seats.voters
  · refine .inl (List.mem_filterMap.mpr ⟨member.raftId, mem_toList.mpr votes, ?_⟩)
    by_cases leader : member.raftId = reconciler.leaderId
    · rw [leader, directory_leader, distinct.leader member gossiped leader]
      rfl
    · rw [directory_of_member distinct gossiped leader]
      rfl
  · exact .inr votes

/-- A candidate is a live, eligible node that does not vote. -/
theorem candidate_cases (leader : reconciler.leaderId ∈ seats.voters)
    (listed : id ∈ reconciler.candidates seats.voters)
    : id ∉ seats.voters ∧ reconciler.live id = true ∧ reconciler.eligibleId id = true := by
  obtain ⟨_, selected, rfl⟩ := List.mem_map.mp listed
  obtain ⟨member, gossiped, eligible, absent, rfl⟩ := mem_selectCouncilCandidates selected
  have outside := (outside_of_present distinct gossiped).resolve_left absent
  have follower : member.raftId ≠ reconciler.leaderId := fun same => outside (same ▸ leader)
  refine ⟨outside, ?_, ?_⟩
  · show reconciler.live member.raftId = true
    rw [live, directory_of_member distinct gossiped follower, eligible_alive eligible]
    rfl
  · rw [eligibleId, List.any_eq_true]
    exact ⟨member, gossiped, by rw [eligible]; exact beq_self_eq_true _⟩

theorem wellFormed_observation (seated : reconciler.Seated seats)
    : (reconciler.observation seats).WellFormed where
  disjoint := seated.disjoint
  leader := seated.leader
  distinct := nodup_selectCouncilCandidates distinct.members _ _ _ _
  spare := fun _ listed => (candidate_cases distinct seated.leader listed).1

end Distinct

end Reconciler

-- When the planner leaves the voters alone

namespace CouncilObservation

variable {observation : CouncilObservation} {config : CouncilSelectionConfig} {now : Nat}

section Quorum

variable (wellFormed : observation.WellFormed) (quorum : observation.hasQuorum = true)

include wellFormed quorum

/-- With a learner ready and a voter to leave, an odd council swaps them. -/
theorem planVoters_swap (odd : observation.voters.size % 2 ≠ 0) {remove : Nat}
    (leaving : observation.leavingFirst config now = some remove)
    (someReady : observation.ready config now ≠ [])
    : ∃ promote, observation.planVoters config now = some (.replace promote remove) := by
  obtain ⟨promote, _, areReady⟩ := List.exists_cons_of_ne_nil someReady
  refine ⟨promote, ?_⟩
  have first : (observation.ready config now).head? = some promote := by rw [areReady]; rfl
  obtain ⟨_, spare, alive⟩ := wellFormed.promotable (List.mem_of_head? first)
  -- The live voter a swap may lose it regains.
  have commits : observation.committable
      ((replace promote remove).votersAfter observation.voters) = true := by
    refine committable_of_exchanges quorum ⟨List.forall_mem_singleton.mpr spare, ?_,
      List.nodup_singleton _, List.nodup_singleton _⟩ (List.forall_mem_singleton.mpr alive) le_rfl
    exact List.forall_mem_singleton.mpr (leavingFirst_cases leaving).1
  rw [planVoters, if_neg odd, planOdd, planSwap, leaving, first]
  simp only [ifCommittable, commits, if_true, Option.some_or]

/-- An even council changes unless it could grow and no learner is ready. -/
theorem planVoters_even_none (even : observation.voters.size % 2 = 0)
    (kept : observation.planVoters config now = none)
    : observation.ready config now = [] := by
  rw [planVoters, if_pos even, planEven] at kept
  split at kept
  · rw [Option.map_eq_none_iff, List.head?_eq_none_iff] at kept
    exact kept
  exfalso
  dsimp only at kept
  rw [Option.bind_eq_none_iff] at kept
  have another : ∃ id ∈ observation.voters, id ≠ observation.leaderId := by
    by_contra alone
    push Not at alone
    have size := size_erase_member wellFormed.leader
    have none : observation.voters.erase observation.leaderId = ∅ := by
      refine ext_mem fun id => ?_
      rw [BTreeSet.mem_erase]
      simp only [not_mem_empty, iff_false, not_and]
      exact fun different member => different (alone id member)
    rw [none, size_empty] at size
    omega
  have refused {id : Nat} (member : id ∈ observation.voters)
      : observation.ifCommittable (.removeVoter id) ≠ none := by
    have commits : observation.committable
        ((removeVoter id).votersAfter observation.voters) = true := by
      refine committable_of_exchanges quorum ⟨List.forall_mem_nil _, ?_, List.nodup_nil,
        List.nodup_singleton _⟩ (List.forall_mem_nil _) ?_
      · exact List.forall_mem_singleton.mpr member
      · have positive := wellFormed.voters_pos
        simp only [promoted, removed, List.length_cons, List.length_nil]
        omega
    rw [ifCommittable, commits]
    simp
  cases first : observation.leavingFirst config now with
  | some id =>
    exact refused (leavingFirst_cases first).1 (kept id (by rw [first]; rfl))
  | none =>
    obtain ⟨id, member, follower⟩ := another
    have found
        : (observation.voters.toList.reverse.find?
            (fun id => id != observation.leaderId)).isSome = true := by
      rw [List.find?_isSome]
      exact ⟨id, List.mem_reverse.mpr (mem_toList.mpr member), bne_iff_ne.mpr follower⟩
    obtain ⟨last, found⟩ := Option.isSome_iff_exists.mp found
    have listed := List.mem_of_find?_eq_some found
    rw [List.mem_reverse, mem_toList] at listed
    exact refused listed (kept last (by rw [first, found]; rfl))

/-- The voters stay as they are only if nobody is ready, or an odd council has nobody to replace. -/
theorem planVoters_none (kept : observation.planVoters config now = none)
    : observation.ready config now = []
      ∨ observation.voters.size % 2 ≠ 0 ∧ observation.leavingFirst config now = none := by
  by_cases even : observation.voters.size % 2 = 0
  · exact .inl (planVoters_even_none wellFormed quorum even kept)
  by_cases someReady : observation.ready config now = []
  · exact .inl someReady
  refine .inr ⟨even, ?_⟩
  cases leaving : observation.leavingFirst config now with
  | none => rfl
  | some remove =>
    obtain ⟨_, planned⟩ := planVoters_swap wellFormed quorum even leaving someReady
    rw [planned] at kept
    cases kept

end Quorum

end CouncilObservation

namespace Reconciler

variable {reconciler : Reconciler} {seats : Seats} {id : Nat}

/-- What a tick may do, with what the planner checked before it. -/
inductive Ticked (reconciler : Reconciler) (seats : Seats) : CouncilAction → Prop
  | voters (action : CouncilAction)
    (planned : (reconciler.observation seats).planVoters reconciler.config reconciler.now
      = some action)
    : Ticked reconciler seats action
  | addLearner (id : Nat)
    (kept : (reconciler.observation seats).planVoters reconciler.config reconciler.now = none)
    (wanted : (reconciler.observation seats).liveLearners
      < (reconciler.observation seats).wantedLearners reconciler.config reconciler.now)
    (candidate : id ∈ reconciler.candidates seats.voters) (absent : id ∉ seats.learners)
    : Ticked reconciler seats (.addLearner id)
  | removeLearner (id : Nat)
    (kept : (reconciler.observation seats).planVoters reconciler.config reconciler.now = none)
    (member : id ∈ seats.learners) (isGone : reconciler.gone id = true)
    : Ticked reconciler seats (.removeLearner id)
  | nothing
    (kept : (reconciler.observation seats).planVoters reconciler.config reconciler.now = none)
    (full : (reconciler.observation seats).wantedLearners reconciler.config reconciler.now
        ≤ (reconciler.observation seats).liveLearners
      ∨ (reconciler.observation seats).newLearner reconciler.config reconciler.now = none)
    : Ticked reconciler seats .nothing

theorem plan_ticked (steady : reconciler.Steady) (seated : reconciler.Seated seats)
    : Ticked reconciler seats (reconciler.plan seats) := by
  rw [plan, planCouncilAction, if_neg (show ¬(reconciler.observation seats).changeInFlight = true
    from Bool.false_ne_true), seated.quorum]
  simp only [Bool.not_true, Bool.false_eq_true, if_false]
  cases planned : (reconciler.observation seats).planVoters reconciler.config reconciler.now with
  | some action => exact .voters action planned
  | none =>
    rw [Option.getD_none, planLearners]
    split
    · rename_i id added
      split at added
      · rename_i wanted
        have listed := List.mem_of_find?_eq_some added
        have passes := (List.find?_eq_some_iff_append.mp added).1
        simp only [Bool.and_eq_true, Bool.not_eq_true'] at passes
        refine .addLearner id planned wanted listed ?_
        rw [mem_iff_contains, show seats.learners.contains id = false from passes.1.1]
        exact Bool.false_ne_true
      · cases added
    · rename_i none
      split
      · rename_i id found
        have listed := mem_toList.mp (List.mem_of_find?_eq_some found)
        have dead := (List.find?_eq_some_iff_append.mp found).1
        rw [deadPastWindow_tracked steady (tracked_of_learner listed)] at dead
        exact .removeLearner id planned listed dead
      · refine .nothing planned ?_
        split at none
        · exact .inr none
        · next full => exact .inl (Nat.le_of_not_lt full)

-- The measure

/-- A voter that leaves and cannot come back: it is dead, or resigning and not eligible. -/
def lost (reconciler : Reconciler) (id : Nat) : Bool :=
  reconciler.gone id || (reconciler.resigning id && !reconciler.eligibleId id)

/-- A voter that leaves and may come back as a candidate. -/
def returning (reconciler : Reconciler) (id : Nat) : Bool :=
  reconciler.leaving id && !reconciler.lost id

def outsiders (reconciler : Reconciler) (seats : Seats) : Nat :=
  reconciler.members.countP (fun member =>
    member.eligible reconciler.config reconciler.now
    && !seats.voters.contains member.raftId && !seats.learners.contains member.raftId)

def level (reconciler : Reconciler) (seats : Seats) : ℕ ×ₗ ℕ ×ₗ ℕ ×ₗ ℕ ×ₗ ℕ ×ₗ ℕ :=
  toLex ((seats.voters.size + 1) % 2,
    toLex (BTreeSet.count reconciler.lost seats.voters,
      toLex (reconciler.config.maxCouncilSize - seats.voters.size,
        toLex (BTreeSet.count reconciler.returning seats.voters,
          toLex (reconciler.outsiders seats, BTreeSet.count reconciler.gone seats.learners)))))

/-- The next change is a swap that heals nothing: the learner first in line for the seat of a voter
under disk pressure is under pressure too, and the voter can come back for the seat.
-/
def swapsBack (reconciler : Reconciler) (seats : Seats) : Bool :=
  decide (seats.voters.size % 2 ≠ 0)
  && ((reconciler.observation seats).leavingFirst reconciler.config reconciler.now).any
      reconciler.returning
  && ((reconciler.observation seats).ready reconciler.config reconciler.now).head?.any
      reconciler.resigning

theorem resigning_of_returning (comesBack : reconciler.returning id = true)
    : reconciler.resigning id = true := by
  cases isGone : reconciler.gone id
  all_goals
    cases resigns : reconciler.resigning id
    all_goals simp_all [returning, leaving, lost]

/-- Fewer are outside once an eligible one joined. -/
theorem outsiders_insert_lt (eligible : reconciler.eligibleId id = true)
    (notVoter : id ∉ seats.voters) (notLearner : id ∉ seats.learners)
    : reconciler.outsiders { seats with learners := seats.learners.insert id }
      < reconciler.outsiders seats := by
  rw [eligibleId, List.any_eq_true] at eligible
  obtain ⟨member, gossiped, passes⟩ := eligible
  rw [Bool.and_eq_true, beq_iff_eq] at passes
  obtain ⟨passes, rfl⟩ := passes
  obtain ⟨before, after, split⟩ := List.append_of_mem gossiped
  have fewer (some : List MembershipSnapshot)
      : some.countP (fun other => other.eligible reconciler.config reconciler.now
          && !seats.voters.contains other.raftId
          && !(seats.learners.insert member.raftId).contains other.raftId)
        ≤ some.countP (fun other => other.eligible reconciler.config reconciler.now
          && !seats.voters.contains other.raftId && !seats.learners.contains other.raftId) := by
    refine List.countP_mono_left fun other _ counted => ?_
    rw [Bool.and_eq_true, Bool.not_eq_true', ← Bool.not_eq_true,
      ← mem_iff_contains, BTreeSet.mem_insert, not_or] at counted
    rw [Bool.and_eq_true, Bool.not_eq_true', ← Bool.not_eq_true, ← mem_iff_contains]
    exact ⟨counted.1, counted.2.2⟩
  have joined : (seats.learners.insert member.raftId).contains member.raftId = true :=
    mem_iff_contains.mp (mem_insert.mpr (.inl rfl))
  rw [mem_iff_contains, Bool.not_eq_true] at notVoter notLearner
  rw [outsiders, outsiders, split, List.countP_append, List.countP_append, List.countP_cons,
    List.countP_cons]
  simp only [passes, notVoter, notLearner, joined, Bool.not_true, Bool.not_false, Bool.and_true,
    Bool.and_false, Bool.false_eq_true, if_true, if_false]
  have front := fewer before
  have back := fewer after
  omega

/-- A dead learner was not eligible. -/
theorem outsiders_erase (distinct : reconciler.DistinctIds) (isGone : reconciler.gone id = true)
    : reconciler.outsiders { seats with learners := seats.learners.erase id }
      = reconciler.outsiders seats := by
  rw [outsiders, outsiders]
  refine List.countP_congr fun member gossiped => ?_
  by_cases same : member.raftId = id
  · have dead : member.eligible reconciler.config reconciler.now = false := by
      rw [← Bool.not_eq_true]
      intro eligible
      have follower : member.raftId ≠ reconciler.leaderId := by
        intro leader
        rw [← same, leader, gone_leader] at isGone
        cases isGone
      rw [← same, gone, directory_of_member distinct gossiped follower,
        eligible_alive eligible] at isGone
      cases isGone
    rw [dead]
    rfl
  · have kept : (seats.learners.erase id).contains member.raftId
        = seats.learners.contains member.raftId := by
      rw [Bool.eq_iff_iff, ← mem_iff_contains, ← mem_iff_contains, BTreeSet.mem_erase]
      exact and_iff_right same
    simp only [kept]

/-- A learner that is ready is a live, eligible node that does not vote. -/
theorem ready_cases (distinct : reconciler.DistinctIds) (seated : reconciler.Seated seats)
    (isReady : id ∈ (reconciler.observation seats).ready reconciler.config reconciler.now)
    : id ∈ seats.learners ∧ id ∉ seats.voters ∧ reconciler.live id = true
      ∧ reconciler.eligibleId id = true := by
  obtain ⟨candidate, learner, _⟩ := mem_ready.mp isReady
  exact ⟨learner, candidate_cases distinct seated.leader candidate⟩

/-- Who gives up its seat is leaving. -/
theorem leavingFirst_leaving (steady : reconciler.Steady)
    (first : (reconciler.observation seats).leavingFirst reconciler.config reconciler.now
      = some id)
    : id ∈ seats.voters ∧ reconciler.leaving id = true := by
  obtain ⟨member, leaves⟩ := leavingFirst_cases first
  refine ⟨member, ?_⟩
  rw [leaving, Bool.or_eq_true]
  refine leaves.imp (fun dead => ?_) fun pressured => ?_
  · rw [← deadPastWindow_tracked steady (tracked_of_voter member)]
    exact deadPastWindow_iff.mpr dead
  · rw [← pressured_voter member]
    exact pressured

theorem mem_deadVoters_gone (steady : reconciler.Steady)
    (dead : id ∈ (reconciler.observation seats).deadVoters reconciler.config reconciler.now)
    : id ∈ seats.voters ∧ reconciler.gone id = true := by
  obtain ⟨member, dead⟩ := mem_deadVoters.mp dead
  refine ⟨member, ?_⟩
  rw [← deadPastWindow_tracked steady (tracked_of_voter member)]
  exact deadPastWindow_iff.mpr dead

section Lowers

variable (steady : reconciler.Steady) (distinct : reconciler.DistinctIds)
  (seated : reconciler.Seated seats)

include steady distinct seated

/-- A change makes the council odd, loses a voter for good, uses up free seats, or takes out one of
the returning voters. -/
theorem level_change (heals : reconciler.swapsBack seats = false) {action : CouncilAction}
    (change : (reconciler.observation seats).VoterChange reconciler.config reconciler.now action)
    : reconciler.level (action.seatsAfter seats) < reconciler.level seats := by
  have exchanges : action.Exchanges seats.voters :=
    change.exchanges (wellFormed_observation distinct seated)
  have size := exchanges.size
  have losses := exchanges.count reconciler.lost
  have returns := exchanges.count reconciler.returning
  have kept : action.promoted.countP reconciler.lost = 0 := by
    refine List.countP_eq_zero.mpr fun id listed => ?_
    obtain ⟨_, _, isLive, eligible⟩ := ready_cases distinct seated (change.isReady listed)
    simp [lost, gone_of_live isLive, eligible]
  simp only [level, seatsAfter, Prod.Lex.toLex_lt_toLex]
  cases change with
  | promote _ even | removeVoter _ even =>
    replace even : seats.voters.size % 2 = 0 := even
    simp only [promoted, removed, List.length_cons, List.length_nil] at size
    exact .inl (by omega)
  | promotePair _ _ _ below =>
    have cap : (reconciler.observation seats).target reconciler.config
        ≤ reconciler.config.maxCouncilSize :=
      target_le_cap (by omega)
    replace below : seats.voters.size + 2 ≤ _ := below
    simp only [promoted, removed, List.length_cons,
      List.length_nil, List.countP_nil] at size losses kept
    exact .inr ⟨by omega, .inr ⟨by omega, .inl (by omega)⟩⟩
  | removeVoterPair first second _ areDead =>
    obtain ⟨rest, areDead⟩ := areDead
    have lost {id : Nat} (listed : id ∈ [first, second]) : reconciler.lost id = true := by
      have dead := mem_deadVoters_gone steady
        (by rw [areDead]; exact List.mem_append_left rest listed)
      rw [lost, dead.2, Bool.true_or]
    have all := List.countP_eq_length.mpr fun id => @lost id
    simp only [promoted, removed, List.length_cons, List.length_nil] at size losses kept all
    exact .inr ⟨by omega, .inl (by omega)⟩
  | replace promote remove odd leavesFirst first =>
    obtain ⟨member, leaves⟩ := leavingFirst_leaving steady leavesFirst
    simp only [promoted, removed, List.length_singleton,
      List.countP_singleton] at size losses returns kept
    refine .inr ⟨by omega, ?_⟩
    cases forGood : reconciler.lost remove with
    | true =>
      rw [forGood, if_pos rfl] at losses
      exact .inl (by omega)
    | false =>
      -- The voter may return, so the node that takes its seat is not under pressure.
      have comesBack : reconciler.returning remove = true := by
        rw [returning, leaves, forGood]
        rfl
      have stays : reconciler.returning promote = false := by
        rw [← Bool.not_eq_true]
        intro away
        replace odd : seats.voters.size % 2 ≠ 0 := odd
        rw [swapsBack, leavesFirst, first, Option.any_some, Option.any_some, comesBack,
          resigning_of_returning away, decide_eq_true odd] at heals
        cases heals
      rw [forGood, if_neg Bool.false_ne_true] at losses
      rw [stays, comesBack, if_pos rfl, if_neg Bool.false_ne_true] at returns
      exact .inr ⟨by omega, .inr ⟨by omega, .inl (by omega)⟩⟩

/-- Every tick that does anything lowers the level, unless it swaps to no avail. -/
theorem tick_level_lt (heals : reconciler.swapsBack seats = false)
    : reconciler.plan seats = .nothing
      ∨ reconciler.level (reconciler.tick seats) < reconciler.level seats := by
  rw [tick]
  have ticked := plan_ticked steady seated
  generalize reconciler.plan seats = action at ticked
  cases ticked with
  | nothing kept full => exact .inl rfl
  | voters action planned =>
    exact .inr (level_change steady distinct seated heals (planVoters_change planned))
  | addLearner id kept wanted candidate absent =>
    obtain ⟨spare, _, eligible⟩ := candidate_cases distinct seated.leader candidate
    have fewer := outsiders_insert_lt eligible spare absent
    right
    simp only [level, seatsAfter, votersAfter,
      Prod.Lex.toLex_lt_toLex, lt_self_iff_false, false_or, true_and]
    exact .inl fewer
  | removeLearner id kept member isGone =>
    have same
        : reconciler.outsiders { seats with learners := seats.learners.erase id }
          = reconciler.outsiders seats :=
      outsiders_erase distinct isGone
    have count := count_erase_member reconciler.gone member
    rw [if_pos isGone] at count
    right
    simp only [level, seatsAfter, votersAfter,
      Prod.Lex.toLex_lt_toLex, lt_self_iff_false, false_or, true_and]
    exact .inr ⟨same, by omega⟩

end Lowers

/-- A quorum, by who is alive in the steady cluster. -/
theorem hasQuorum_iff
    : (reconciler.observation seats).hasQuorum = true
      ↔ majority seats.voters.size ≤ BTreeSet.count reconciler.live seats.voters := by
  have same : (reconciler.observation seats).liveVoters seats.voters
      = BTreeSet.count reconciler.live seats.voters :=
    count_congr fun id member => alive_tracked (tracked_of_voter member)
  rw [← same]
  exact decide_eq_true_iff

theorem mem_learnersAfter {action : CouncilAction}
    (change : (reconciler.observation seats).VoterChange reconciler.config reconciler.now action)
    : id ∈ (action.seatsAfter seats).learners ↔ id ∉ action.promoted ∧ id ∈ seats.learners := by
  cases change
  all_goals
    simp only [seatsAfter, promoted, BTreeSet.mem_erase, List.mem_cons, List.not_mem_nil]
    tauto

/-- After a change of the voters no learner votes. -/
theorem seatsAfter_disjoint {action : CouncilAction}
    (change : (reconciler.observation seats).VoterChange reconciler.config reconciler.now action)
    (disjoint : ∀ id ∈ seats.voters, id ∉ seats.learners)
    : ∀ id ∈ (action.seatsAfter seats).voters, id ∉ (action.seatsAfter seats).learners := by
  intro id member learner
  obtain ⟨stays, learner⟩ := (mem_learnersAfter change).mp learner
  exact disjoint id ((mem_votersAfter.mp member).2.resolve_left stays) learner

/-- A tick keeps the leader, the split into voters and learners, and the quorum. -/
theorem tick_seated (steady : reconciler.Steady) (distinct : reconciler.DistinctIds)
    (seated : reconciler.Seated seats)
    : reconciler.Seated (reconciler.tick seats) := by
  rw [tick]
  have ticked := plan_ticked steady seated
  generalize reconciler.plan seats = action at ticked
  cases ticked with
  | nothing kept full => exact seated
  | voters action planned =>
    have change := planVoters_change planned
    have safe := change.safe (wellFormed_observation distinct seated) seated.quorum
    refine ⟨safe.leader, seatsAfter_disjoint change seated.disjoint, hasQuorum_iff.mpr ?_⟩
    refine safe.commits.trans (Nat.le_of_eq (count_congr fun id member => ?_))
    apply alive_tracked
    by_cases voter : id ∈ seats.voters
    · exact tracked_of_voter voter
    · exact tracked_of_learner (safe.promoted id member voter).learner
  | addLearner id kept wanted candidate absent =>
    have quorum := hasQuorum_iff.mp seated.quorum
    refine ⟨seated.leader, ?_, hasQuorum_iff.mpr quorum⟩
    intro other member learner
    rcases BTreeSet.mem_insert.mp learner with rfl | learner
    · exact (candidate_cases distinct seated.leader candidate).1 member
    · exact seated.disjoint other member learner
  | removeLearner id kept member isGone =>
    have quorum := hasQuorum_iff.mp seated.quorum
    refine ⟨seated.leader, ?_, hasQuorum_iff.mpr quorum⟩
    intro other member learner
    exact seated.disjoint other member (BTreeSet.mem_erase.mp learner).2

end Reconciler

end Reliaburger
