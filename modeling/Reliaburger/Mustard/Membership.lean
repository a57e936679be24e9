import Reliaburger.Council.Healing

/-! The gossip membership table: what is said of a node is merged by incarnation and severity, so
a table ends with the same entries whatever the order of the updates, but for the nodes it learns
of from them.
-/

namespace Reliaburger

-- Conflicts

def NodeState.disseminationPriority : NodeState → Nat
  | .dead | .left => 3
  | .suspect => 2
  | .alive => 1

def resolveConflict (oldState : NodeState) (oldIncarnation : Nat) (newState : NodeState)
    (newIncarnation : Nat)
    : NodeState × Nat :=
  if newState = .left ∧ newIncarnation ≥ oldIncarnation then
    (.left, newIncarnation)
  else if oldState = .left ∧ oldIncarnation ≥ newIncarnation then
    (.left, oldIncarnation)
  else if newIncarnation > oldIncarnation then
    (newState, newIncarnation)
  else if newIncarnation < oldIncarnation then
    (oldState, oldIncarnation)
  else if newState.disseminationPriority ≥ oldState.disseminationPriority then
    (newState, newIncarnation)
  else
    (oldState, oldIncarnation)

/-- The order that conflicts are resolved by: the later entry wins. -/
def Yields (old new : NodeState × Nat) : Prop :=
  resolveConflict old.1 old.2 new.1 new.2 = new

def severity : NodeState → Nat
  | .alive => 0
  | .suspect => 1
  | .dead => 2
  | .left => 3

/-- Incarnation first, then severity, as one number. -/
def rank (standing : NodeState × Nat) : Nat :=
  4 * standing.2 + severity standing.1

theorem rank_injective {first second : NodeState × Nat} (same : rank first = rank second)
    : first = second := by
  obtain ⟨state, _⟩ := first
  obtain ⟨state', _⟩ := second
  cases state <;> cases state' <;> simp only [rank, severity] at same <;>
    first
      | omega
      | exact congrArg _ (by omega)

theorem rank_resolveConflict (old new : NodeState × Nat)
    : rank (resolveConflict old.1 old.2 new.1 new.2) = max (rank old) (rank new) := by
  obtain ⟨oldState, _⟩ := old
  obtain ⟨newState, _⟩ := new
  cases oldState <;> cases newState <;>
    simp only [resolveConflict, NodeState.disseminationPriority, reduceCtorEq, false_and,
      true_and, ge_iff_le, Nat.reduceLeDiff, le_refl, if_true, if_false] <;>
    split_ifs <;> simp only [rank, severity] <;> omega

/-- A conflict is won by the higher rank. -/
theorem resolveConflict_eq (old new : NodeState × Nat)
    : resolveConflict old.1 old.2 new.1 new.2 = if rank old ≤ rank new then new else old := by
  apply rank_injective
  rw [rank_resolveConflict]
  split <;> omega

theorem yields_iff {old new : NodeState × Nat} : Yields old new ↔ rank old ≤ rank new := by
  rw [Yields, resolveConflict_eq]
  split
  · next below => simp [below]
  rename_i above
  refine ⟨?_, fun below => absurd below above⟩
  rintro rfl
  exact le_rfl

-- The table

structure MembershipUpdate where
  nodeId : NodeId
  address : String
  state : NodeState
  incarnation : Nat
deriving DecidableEq, Repr

def MembershipUpdate.standing (update : MembershipUpdate) : NodeState × Nat :=
  (update.state, update.incarnation)

structure NodeMembership where
  nodeId : NodeId
  address : String
  state : NodeState
  incarnation : Nat
  firstSeen : Nat
  lastAck : Nat
  stateChanged : Nat
  resources : Option ResourceSummary := none
  labels : BTreeMap String String := ∅
  isCouncil : Bool := false
  isLeader : Bool := false
deriving DecidableEq

structure MembershipTable where
  members : BTreeMap NodeId NodeMembership := ∅

namespace MembershipTable

/-- Whether the entry changed, and the table after the update. -/
def applyUpdate (table : MembershipTable) (update : MembershipUpdate) (now : Nat)
    : Bool × MembershipTable :=
  match table.members[update.nodeId]? with
  | some existing =>
    let resolved := resolveConflict existing.state existing.incarnation update.state
      update.incarnation
    if resolved.1 ≠ existing.state ∨ resolved.2 ≠ existing.incarnation then
      (true, { members := table.members.insert update.nodeId { existing with
        state := resolved.1
        incarnation := resolved.2
        stateChanged := if resolved.1 ≠ existing.state then now else existing.stateChanged
        lastAck := if resolved.1 = .alive then now else existing.lastAck } })
    else
      (false, table)
  | none =>
    -- A node never seen before is added only while it is alive.
    if update.state = .alive then
      (true, { members := table.members.insert update.nodeId {
        nodeId := update.nodeId
        address := update.address
        state := .alive
        incarnation := update.incarnation
        firstSeen := now
        lastAck := now
        stateChanged := now } })
    else
      (false, table)

/-- The updates, each with the time it is applied at, one after another. -/
def hear (table : MembershipTable) (heard : List (MembershipUpdate × Nat)) : MembershipTable :=
  heard.foldl (fun table update => (table.applyUpdate update.1 update.2).2) table

def standing (table : MembershipTable) (nodeId : NodeId) : Option (NodeState × Nat) :=
  table.members[nodeId]?.map fun member => (member.state, member.incarnation)

def Agrees (table other : MembershipTable) : Prop :=
  ∀ nodeId, table.standing nodeId = other.standing nodeId

/-- The order and the repetitions of the updates are free, and so are their times. -/
def Tells (heard : List (MembershipUpdate × Nat)) (updates : List MembershipUpdate) : Prop :=
  ∀ update, update ∈ heard.map Prod.fst ↔ update ∈ updates

variable {table : MembershipTable} {update : MembershipUpdate} {nodeId : NodeId}
  {old : NodeState × Nat} {heard : List (MembershipUpdate × Nat)}

/-- What an update makes of the entry it is about. -/
def merged : Option (NodeState × Nat) → MembershipUpdate → Option (NodeState × Nat)
  | some old, update => some (if rank old ≤ rank update.standing then update.standing else old)
  | none, update => if update.state = .alive then some update.standing else none

theorem applyUpdate_spec (table : MembershipTable) (update : MembershipUpdate) (now : Nat)
    : ((table.applyUpdate update now).1 = true
        ↔ (table.applyUpdate update now).2.standing update.nodeId ≠ table.standing update.nodeId)
      ∧ ((table.applyUpdate update now).1 = false → (table.applyUpdate update now).2 = table)
      ∧ ∀ nodeId, (table.applyUpdate update now).2.standing nodeId
          = if update.nodeId = nodeId then merged (table.standing update.nodeId) update
            else table.standing nodeId := by
  unfold applyUpdate
  split
  · rename_i existing found
    have before : table.standing update.nodeId
        = some (existing.state, existing.incarnation) := by
      simp [standing, found]
    have resolved := resolveConflict_eq (existing.state, existing.incarnation) update.standing
    dsimp only [MembershipUpdate.standing] at resolved
    rw [← Prod.eta (resolveConflict _ _ _ _)] at resolved
    simp only [before, merged, MembershipUpdate.standing]
    rw [← resolved]
    split
    · rename_i changed
      simp only [standing, BTreeMap.get_insert]
      refine ⟨?_, by simp, fun nodeId => ?_⟩
      · simpa [Prod.ext_iff, imp_iff_not_or] using changed
      · split <;> rfl
    · rename_i same
      rw [not_or, not_not, not_not] at same
      refine ⟨by simp [before], fun _ => rfl, fun nodeId => ?_⟩
      split
      · next is => rw [← is, before, same.1, same.2]
      · rfl
  · rename_i absent
    have before : table.standing update.nodeId = none := by simp [standing, absent]
    simp only [before, merged]
    split
    · rename_i alive
      simp only [standing, BTreeMap.get_insert]
      refine ⟨by simp, by simp, fun nodeId => ?_⟩
      split <;> simp [MembershipUpdate.standing, alive]
    · refine ⟨by simp [before], fun _ => rfl, fun nodeId => ?_⟩
      split
      · next is => rw [← is, before]
      · rfl

/-- What is made of a node's entry by all that is said of the node. -/
def outcome (start : Option (NodeState × Nat)) (said : List MembershipUpdate)
    : Option (NodeState × Nat) :=
  said.foldl merged start

def about (nodeId : NodeId) (heard : List (MembershipUpdate × Nat)) : List MembershipUpdate :=
  (heard.map Prod.fst).filter fun update => update.nodeId = nodeId

theorem standing_hear
    : (table.hear heard).standing nodeId
      = outcome (table.standing nodeId) (about nodeId heard) := by
  induction heard generalizing table with
  | nil => rfl
  | cons update rest ih =>
    rw [hear, List.foldl_cons, ← hear, ih, (applyUpdate_spec table update.1 update.2).2.2]
    by_cases named : update.1.nodeId = nodeId
    · simp [about, outcome, named]
    · simp [about, named]

variable {said : List MembershipUpdate}

/-- The entry of a known node ends at the highest rank of all that was said, by induction on
it. -/
theorem outcome_known (said : List MembershipUpdate) (old : NodeState × Nat)
    : ∃ final, outcome (some old) said = some final
      ∧ ∀ bound, rank final ≤ bound
          ↔ rank old ≤ bound ∧ ∀ update ∈ said, rank update.standing ≤ bound := by
  induction said generalizing old with
  | nil => exact ⟨old, rfl, by simp⟩
  | cons update rest ih =>
    obtain ⟨final, ends, bounds⟩ :=
      ih (if rank old ≤ rank update.standing then update.standing else old)
    refine ⟨final, ends, fun bound => ?_⟩
    rw [bounds, List.forall_mem_cons, ← and_assoc]
    refine and_congr_left' ?_
    split <;> omega

theorem outcome_silent (silent : ∀ update ∈ said, update.state ≠ .alive)
    : outcome none said = none := by
  induction said with
  | nil => rfl
  | cons update rest ih =>
    obtain ⟨here, later⟩ := List.forall_mem_cons.mp silent
    rw [outcome, List.foldl_cons, merged, if_neg here]
    exact ih later

/-- An unknown node is learnt of while it is alive; from there on its entry is no lower than any
alive one. -/
theorem outcome_unknown (lives : ∃ update ∈ said, update.state = .alive)
    : ∃ final, outcome none said = some final
      ∧ (∀ bound, (∀ update ∈ said, rank update.standing ≤ bound) → rank final ≤ bound)
      ∧ ∀ update ∈ said, update.state = .alive → rank update.standing ≤ rank final := by
  induction said with
  | nil => simp at lives
  | cons update rest ih =>
    rw [outcome, List.foldl_cons, merged]
    split
    · obtain ⟨final, ends, bounds⟩ := outcome_known rest update.standing
      obtain ⟨above, all⟩ := (bounds _).mp le_rfl
      exact ⟨final, ends, fun bound high => (bounds bound).mpr (List.forall_mem_cons.mp high),
        List.forall_mem_cons.mpr ⟨fun _ => above, fun other listed _ => all other listed⟩⟩
    · rename_i silent
      obtain ⟨final, ends, bounds, all⟩ := ih (by simpa [silent] using lives)
      exact ⟨final, ends, fun bound high => bounds bound (List.forall_mem_cons.mp high).2,
        List.forall_mem_cons.mpr ⟨fun alive => absurd alive silent, all⟩⟩

-- Convergence

/-- What the updates say against the life of a node is refuted by a later life, or the node is
known, or not learnt of. -/
def Decided (table : MembershipTable) (updates : List MembershipUpdate)
    (update : MembershipUpdate)
    : Prop :=
  update.nodeId ∈ table.members
  ∨ (∀ other ∈ updates, other.nodeId = update.nodeId → other.state ≠ .alive)
  ∨ ∃ other ∈ updates,
      other.nodeId = update.nodeId
      ∧ other.state = .alive
      ∧ update.incarnation < other.incarnation

theorem rank_alive (alive : update.state = .alive)
    : rank update.standing = 4 * update.incarnation := by
  simp [rank, MembershipUpdate.standing, alive, severity]

theorem rank_bounds (update : MembershipUpdate)
    : rank update.standing ≤ 4 * update.incarnation + 3
      ∧ (update.state ≠ .alive → 4 * update.incarnation < rank update.standing) := by
  rw [rank, MembershipUpdate.standing]
  cases update.state <;> simp [severity]

/-- The order of what is said of one node does not matter if it is known, or if all that is said
against it is refuted. -/
theorem outcome_congr {start : Option (NodeState × Nat)} {other : List MembershipUpdate}
    (same : ∀ update, update ∈ said ↔ update ∈ other)
    (refuted : start = none → ∀ update ∈ said, update.state ≠ .alive
      → (∀ life ∈ said, life.state ≠ .alive)
        ∨ ∃ life ∈ said, life.state = .alive ∧ update.incarnation < life.incarnation)
    : outcome start said = outcome start other := by
  cases start with
  | some old =>
    obtain ⟨_, ends, bounds⟩ := outcome_known said old
    obtain ⟨_, ends', bounds'⟩ := outcome_known other old
    simp only [← same] at bounds'
    rw [ends, ends']
    exact congrArg some (rank_injective (le_antisymm ((bounds _).mpr ((bounds' _).mp le_rfl))
      ((bounds' _).mpr ((bounds _).mp le_rfl))))
  | none =>
    by_cases lives : ∃ update ∈ said, update.state = .alive
    · obtain ⟨_, ends, bounds, all⟩ := outcome_unknown lives
      obtain ⟨_, ends', bounds', all'⟩ :=
        @outcome_unknown other (by simpa only [← same] using lives)
      simp only [← same] at bounds' all'
      have whole {top : NodeState × Nat}
          (all : ∀ life ∈ said, life.state = .alive → rank life.standing ≤ rank top)
          : ∀ update ∈ said, rank update.standing ≤ rank top := by
        intro update listed
        by_cases alive : update.state = .alive
        · exact all update listed alive
        rcases refuted rfl update listed alive with silent | ⟨life, inside, lives, _⟩
        · obtain ⟨life, inside, lives⟩ := lives
          exact absurd lives (silent life inside)
        have high := all life inside lives
        rw [rank_alive lives] at high
        have := (rank_bounds update).1
        omega
      rw [ends, ends']
      exact congrArg some (rank_injective (le_antisymm (bounds _ (whole all'))
        (bounds' _ (whole all))))
    · have silent : ∀ update ∈ said, update.state ≠ .alive := by
        simpa only [not_exists, not_and] using lives
      rw [outcome_silent silent, outcome_silent (by simpa only [← same] using silent)]

theorem mem_about {updates : List MembershipUpdate} (told : Tells heard updates)
    : update ∈ about nodeId heard ↔ update ∈ updates ∧ update.nodeId = nodeId := by
  rw [about, List.mem_filter, told, decide_eq_true_iff]

/-- Nothing outranks the word against a life that no life refutes: heard after the lives it
decides, heard before them it is lost. -/
theorem decided_of_outcome (undecided : update.state ≠ .alive)
    {lives others : List MembershipUpdate}
    (same : outcome none (lives ++ others) = outcome none (others ++ lives))
    (alive : ∀ life ∈ lives, life.state = .alive) (dead : ∀ other ∈ others, other.state ≠ .alive)
    (listed : update ∈ others) (some : lives ≠ [])
    : ∃ life ∈ lives, update.incarnation < life.incarnation := by
  obtain ⟨life, inside⟩ := List.exists_mem_of_ne_nil _ some
  obtain ⟨first, ends, bounds, _⟩ := outcome_unknown ⟨life, inside, alive life inside⟩
  obtain ⟨_, ends', bounds'⟩ := outcome_known others first
  have onward (first second : List MembershipUpdate)
      : outcome none (first ++ second) = outcome (outcome none first) second :=
    List.foldl_append
  rw [onward, onward, ends, ends', outcome_silent dead, ends] at same
  cases same
  by_contra latest
  simp only [not_exists, not_and, not_lt] at latest
  have high := ((bounds' _).mp le_rfl).2 update listed
  have low := bounds (4 * update.incarnation) fun life inside => by
    rw [rank_alive (alive life inside)]
    have := latest life inside
    omega
  have := (rank_bounds update).2 undecided
  omega

/-- Tables that agree and hear the same updates, in any two orders and with any repetitions, agree
afterwards exactly when what is said against the life of a node they do not know is refuted by a
later life or no life is told of; every update raises the entry it is about, or leaves the table
as it is. -/
theorem gossip_converges_iff (table : MembershipTable) (updates : List MembershipUpdate)
    : ((∀ (peer : MembershipTable) (first second : List (MembershipUpdate × Nat)),
          table.Agrees peer
          → Tells first updates
          → Tells second updates
          → (table.hear first).Agrees (peer.hear second))
        ↔ ∀ update ∈ updates, update.state ≠ .alive → table.Decided updates update)
      ∧ ∀ (update : MembershipUpdate) (now : Nat),
          ((table.applyUpdate update now).1 = true
            ↔ (table.applyUpdate update now).2.standing update.nodeId
              ≠ table.standing update.nodeId)
          ∧ ((table.applyUpdate update now).1 = false → (table.applyUpdate update now).2 = table)
          ∧ ∀ nodeId old, table.standing nodeId = some old
              → ∃ new, (table.applyUpdate update now).2.standing nodeId = some new
                ∧ Yields old new := by
  refine ⟨⟨fun converges update listed against => ?_,
    fun decided peer first second agrees one two nodeId => ?_⟩, fun update now => ?_⟩
  · by_cases known : update.nodeId ∈ table.members
    · exact .inl known
    by_cases silent : ∀ other ∈ updates, other.nodeId = update.nodeId → other.state ≠ .alive
    · exact .inr (.inl silent)
    let lives := updates.filter fun other => other.state = .alive
    let others := updates.filter fun other => other.state ≠ .alive
    have agree := converges table ((lives ++ others).map (·, 0)) ((others ++ lives).map (·, 0))
      (fun _ => rfl)
      (fun other => by by_cases alive : other.state = .alive <;> simp [lives, others, alive])
      (fun other => by by_cases alive : other.state = .alive <;> simp [lives, others, alive])
      update.nodeId
    have absent : table.standing update.nodeId = none := by
      simp [standing, BTreeMap.not_mem_iff.mp known]
    simp only [standing_hear, absent, about, List.map_map, Function.comp_def, List.map_id',
      List.filter_append] at agree
    obtain ⟨life, inside, later⟩ := decided_of_outcome against agree
      (fun life inside => by
        simpa [lives] using (List.mem_filter.mp (List.mem_of_mem_filter inside)).2)
      (fun other inside => by
        simpa [others] using (List.mem_filter.mp (List.mem_of_mem_filter inside)).2)
      (by simp [others, listed, against]) (by
        simpa [lives, List.filter_eq_nil_iff, imp.swap] using silent)
    simp only [lives, List.mem_filter, decide_eq_true_eq] at inside
    exact .inr (.inr ⟨life, inside.1.1, inside.2, inside.1.2, later⟩)
  · rw [standing_hear, standing_hear, ← agrees nodeId]
    refine outcome_congr (fun update => by rw [mem_about one, mem_about two]) ?_
    intro unknown update listed against
    simp only [mem_about one] at listed ⊢
    obtain ⟨listed, rfl⟩ := listed
    rcases decided update listed against with known | silent | ⟨life, inside, named, lives, later⟩
    · obtain ⟨_, found⟩ := BTreeMap.mem_iff.mp known
      simp [standing, found] at unknown
    · exact .inl fun life inside => silent life inside.1 inside.2
    · exact .inr ⟨life, ⟨inside, named⟩, lives, later⟩
  · obtain ⟨answers, keeps, standings⟩ := applyUpdate_spec table update now
    refine ⟨answers, keeps, fun nodeId old found => ?_⟩
    rw [standings]
    split
    · rename_i named
      rw [named, found, merged]
      refine ⟨_, rfl, yields_iff.mpr ?_⟩
      split <;> omega
    · exact ⟨old, found, yields_iff.mpr le_rfl⟩

/-- A death that is heard before the life it ends is forgotten: the table that hears it afterwards
holds the node dead, the other one alive. -/
theorem death_before_life_is_forgotten
    : ¬ ∀ (table peer : MembershipTable) (updates : List MembershipUpdate)
        (first second : List (MembershipUpdate × Nat)),
        table.Agrees peer
        → Tells first updates
        → Tells second updates
        → (table.hear first).Agrees (peer.hear second) := by
  intro converges
  let life : MembershipUpdate := ⟨"n1", "10.0.0.1:7946", .alive, 1⟩
  let death : MembershipUpdate := ⟨"n1", "10.0.0.1:7946", .dead, 1⟩
  have agree := converges {} {} [life, death] [(life, 0), (death, 1)] [(death, 0), (life, 1)]
    (fun _ => rfl) (by simp [Tells]) (by simp [Tells, or_comm]) "n1"
  exact absurd agree (by decide +kernel)

end MembershipTable

end Reliaburger
