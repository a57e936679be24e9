import Reliaburger.Council.Frame

/-! Node faults and decommissioning against the council's quorum, while the voters are one fixed
configuration.
-/

namespace Reliaburger

open Checks Std.ExtTreeSet SecurityState

def CouncilEntry.KeepsMembership (entry : CouncilEntry) : Prop :=
  ∀ jointConfig nodes, entry.payload ≠ .membership jointConfig nodes

/-- What may end a reservation: a release of its own number, or the end of its target. -/
def CouncilEntry.Ends (entry : CouncilEntry) (active : NodeFaultReservation) : Prop :=
  entry.payload = .request (.releaseNodeFault active.sequence)
  ∨ ∃ nodeId retiredBy reason retiredAtUnixMs membershipLogId,
      entry.payload = .request
        (.decommissionNode nodeId retiredBy reason retiredAtUnixMs membershipLogId)
      ∧ active.request.targetNode = some nodeId

namespace DesiredState

variable {S : Surroundings} {state next : DesiredState} {entry : CouncilEntry}

-- Voters

/-- Whether the fault in progress may cost a node's vote. -/
def isFaulted (state : DesiredState) (name : String) : Bool :=
  state.nodeFaultReservations.active.any (fun active =>
    active.request.faultType != .nodeDrain && active.request.targetNode == some name)

/-- Whether a voter is decommissioned or under a fault. -/
def isLost (state : DesiredState) (nodes : BTreeMap Nat String) (id : Nat) : Bool :=
  nodes[id]?.any (fun name => state.security.isRetired name || state.isFaulted name)

/-- The voters that are neither decommissioned nor under a fault are a majority. -/
def HasQuorum (state : DesiredState) (voters : BTreeSet Nat) (nodes : BTreeMap Nat String)
    : Prop :=
  voters.size / 2 + 1 ≤ (voters.toList.filter (fun id => !state.isLost nodes id)).length

/-- The condition under which faults respect decommissioning: whoever reserves a fault counts
every decommissioned voter as unavailable, and a seed does not retire nodes. -/
def CountsRetired (voters : BTreeSet Nat) (nodes : BTreeMap Nat String) (state : DesiredState)
    (entry : CouncilEntry)
    : Prop :=
  match entry.payload with
  | .request (.reserveNodeFault reservation _ unavailable) =>
    reservation.request.faultType ≠ .nodeDrain
    → ∀ id ∈ voters, nodes[id]?.any state.security.isRetired = true → id ∈ unavailable
  | .request (.securityStateInit security) =>
    ∀ name, security.isRetired name = true → state.security.isRetired name = true
  | _ => True

theorem HasQuorum.mono {voters : BTreeSet Nat} {nodes : BTreeMap Nat String}
    (quorum : state.HasQuorum voters nodes)
    (kept : ∀ id, next.isLost nodes id = true → state.isLost nodes id = true)
    : next.HasQuorum voters nodes := by
  refine quorum.trans (List.Sublist.length_le (List.monotone_filter_right _ ?_))
  intro id remains
  cases lost : next.isLost nodes id with
  | false => rfl
  | true => simp [kept id lost] at remains

theorem isLost_mono {nodes : BTreeMap Nat String}
    (retired : ∀ name, next.security.isRetired name = true → state.security.isRetired name = true)
    (faulted : ∀ name, next.isFaulted name = true → state.isFaulted name = true) (id : Nat)
    (lost : next.isLost nodes id = true)
    : state.isLost nodes id = true := by
  unfold isLost at lost ⊢
  cases found : nodes[id]? with
  | none => simp [found] at lost
  | some name =>
    simp only [found, Option.any_some, Bool.or_eq_true] at lost ⊢
    exact lost.imp (retired name) (faulted name)

-- Reservations

/-- A reservation is granted once, under the next sequence number. -/
theorem reserveFault_eq_ok {reservations after : NodeFaultReservations}
    {reservation : NodeFaultReservation}
    (reserved : reservations.reserveFault reservation = .ok after)
    : (reservations.active = some reservation ∧ after = reservations)
      ∨ (reservations.active = none
        ∧ reservation.sequence = reservations.lastSequence + 1
        ∧ after = ⟨reservation.sequence, some reservation⟩) := by
  unfold NodeFaultReservations.reserveFault at reserved
  split at reserved
  · rename_i active held
    split at reserved
    · rename_i same
      cases reserved
      exact .inl ⟨same ▸ held, rfl⟩
    · cases reserved
  · rename_i idle
    obtain ⟨_, fits, rest⟩ := bind_eq_ok.mp reserved
    obtain ⟨_, _, made⟩ := bind_eq_ok.mp rest
    rw [refuseIf_eq_ok, not_not] at fits
    exact .inr ⟨idle, fits.2.symm, (pure_eq_ok.mp made).symm⟩

theorem releaseFault_eq_ok {reservations after : NodeFaultReservations} {sequence : Nat}
    (released : reservations.releaseFault sequence = .ok after)
    : after.lastSequence = reservations.lastSequence
      ∧ after.active = none
      ∧ ∀ active, reservations.active = some active → active.sequence = sequence := by
  unfold NodeFaultReservations.releaseFault at released
  split at released
  · rename_i active held
    split at released
    · rename_i same
      cases released
      refine ⟨rfl, rfl, fun other found => ?_⟩
      rw [held] at found
      exact Option.some.inj found ▸ same
    · cases released
  · rename_i idle
    split at released
    · cases released
      exact ⟨rfl, idle, by simp [idle]⟩
    · cases released

/-- A voter is lost after a reservation only by retirement, or as its target. -/
theorem reserveNodeFault_eq_ok {reservation : NodeFaultReservation}
    {membershipLogId : Option LogId} {unavailable : BTreeSet Nat} {answer : CouncilResponse}
    (reserved : state.reserveNodeFault reservation membershipLogId unavailable
        = .ok (answer, next))
    : (reservation.request.faultType ≠ .nodeDrain
        → (unavailable.toList.filter (fun id => state.membership.voterIds.contains id)).length + 1
          ≤ (state.membership.voterIds.size - 1) / 2)
      ∧ state.nodeFaultReservations.reserveFault reservation = .ok next.nodeFaultReservations
      ∧ next.security = state.security := by
  obtain ⟨_, _, rest⟩ := bind_eq_ok.mp reserved
  obtain ⟨_, _, rest⟩ := bind_eq_ok.mp rest
  obtain ⟨_, counted, rest⟩ := bind_eq_ok.mp rest
  obtain ⟨_, granted, accepted⟩ := bind_eq_ok.mp rest
  cases accepted
  rw [refuseWhen, refuseIf_eq_ok] at counted
  refine ⟨fun harmful => ?_, mapError_eq_ok.mp granted, rfl⟩
  exact not_lt.mp (fun exceeded => counted ⟨harmful, exceeded⟩)

/-- Decommissioning leaves the faults alone, or retires a node whose loss a majority survives and
whose own fault ends with it. -/
theorem decommissionNode_eq_ok {nodeId retiredBy reason : String} {retiredAtUnixMs : Nat}
    {membershipLogId : Option LogId} {answer : CouncilResponse}
    (retired : state.decommissionNode nodeId retiredBy reason retiredAtUnixMs membershipLogId
        = .ok (answer, next))
    : next = state
      ∨ ((∀ active, state.nodeFaultReservations.active = some active
            → active.request.targetNode = some nodeId)
        ∧ (∀ voters ∈ state.membership.jointConfig,
            voters.isEmpty = false → voters.size / 2 + 1 ≤ state.remainingVoters nodeId voters)
        ∧ next.nodeFaultReservations = { state.nodeFaultReservations with active := none }
        ∧ ∀ name, next.security.isRetired name = true
            → name = nodeId ∨ state.security.isRetired name = true) := by
  obtain ⟨_, _, rest⟩ := bind_eq_ok.mp retired
  split at rest
  · exact .inl (Prod.mk.inj (Except.ok.inj rest)).2.symm
  obtain ⟨_, _, rest⟩ := bind_eq_ok.mp rest
  obtain ⟨_, _, rest⟩ := bind_eq_ok.mp rest
  obtain ⟨_, unhindered, rest⟩ := bind_eq_ok.mp rest
  obtain ⟨_, enough, rest⟩ := bind_eq_ok.mp rest
  obtain ⟨_, _, accepted⟩ := bind_eq_ok.mp rest
  cases accepted
  rw [refuseWhen, refuseIf_eq_ok] at unhindered enough
  refine .inr ⟨fun active held => ?_, fun voters listed filled => ?_, rfl, fun name found => ?_⟩
  · simpa [held] using unhindered
  · by_contra short
    apply enough
    simp only [List.any_eq_true, Bool.and_eq_true, Bool.not_eq_true', decide_eq_true_eq]
    exact ⟨voters, listed, filled, not_le.mp short⟩
  · simp only [isRetired, Std.ExtTreeMap.contains_insert, Bool.or_eq_true,
      beq_iff_eq, Std.compare_eq_iff_eq] at found ⊢
    exact found.imp_left Eq.symm

-- One fixed configuration

theorem membership_step (keeps : entry.KeepsMembership)
    : (state.step S entry).membership = state.membership := by
  rcases step_cases S state entry with
    ⟨request, _, _, _, handled, _, after⟩ | ⟨membership, fixed, after⟩
  · rw [after]
    refine handle_frames request _ handled .membership ?_
    cases request <;> simp [CouncilRequest.touches, specAreas]
  · cases payload : entry.payload with
    | blank => simp [step, applyEntry, payload]
    | request request => rw [after, (fixed request payload).1]
    | membership jointConfig nodes => exact absurd payload (keeps jointConfig nodes)

/-- The configuration in force: one set of voters, no two of one name. -/
structure Configured (state : DesiredState) (voters : BTreeSet Nat)
    (nodes : BTreeMap Nat String)
    : Prop where
  stable : ∃ logId, state.membership = ⟨logId, [voters], nodes⟩
  filled : voters.isEmpty = false
  named : ∀ id ∈ voters, ∀ other ∈ voters, ∀ name,
    nodes[id]? = some name → nodes[other]? = some name → id = other

section

variable {voters : BTreeSet Nat} {nodes : BTreeMap Nat String}

section

variable (configured : state.Configured voters nodes)
include configured

theorem Configured.step (keeps : entry.KeepsMembership)
    : (state.step S entry).Configured voters nodes := by
  refine ⟨?_, configured.filled, configured.named⟩
  rw [membership_step keeps]
  exact configured.stable

theorem Configured.atEntry (logId : LogId)
    : ({ state with lastApplied := some logId } : DesiredState).Configured voters nodes :=
  ⟨configured.stable, configured.filled, configured.named⟩

theorem Configured.voterIds
    : state.membership.voterIds = voters := by
  obtain ⟨_, same⟩ := configured.stable
  rw [same]
  apply ext_mem
  intro id
  simp [Membership.voterIds, BTreeSet.mem_foldl_insert]

/-- Voters are lost only where `spare` lists them or as the one of a given name. -/
theorem lost_length_le {spare : List Nat}
    (target : Option String)
    (lost : ∀ id ∈ voters, next.isLost nodes id = true
        → id ∈ spare ∨ ∃ name, target = some name ∧ nodes[id]? = some name)
    : (voters.toList.filter (fun id => next.isLost nodes id)).length ≤ spare.length + 1 := by
  have distinct : (voters.toList.filter (fun id => next.isLost nodes id)).Nodup :=
    (BTreeSet.nodup_toList voters).filter _
  by_cases found : ∃ id ∈ voters, ∃ name, target = some name ∧ nodes[id]? = some name
  · obtain ⟨id, isVoter, name, targeted, known⟩ := found
    suffices counted : voters.toList.filter (fun id => next.isLost nodes id) ⊆ id :: spare from
      (List.subperm_of_subset distinct counted).length_le
    intro other listed
    simp only [List.mem_filter, mem_toList] at listed
    rcases lost other listed.1 listed.2 with counted | ⟨_, targeted', known'⟩
    · exact List.mem_cons_of_mem _ counted
    rw [targeted] at targeted'
    obtain rfl := Option.some.inj targeted'
    exact List.mem_cons.mpr (.inl (configured.named other listed.1 id isVoter name known' known))
  · suffices counted : voters.toList.filter (fun id => next.isLost nodes id) ⊆ spare from
      (List.subperm_of_subset distinct counted).length_le.trans (Nat.le_succ _)
    intro other listed
    simp only [List.mem_filter, mem_toList] at listed
    rcases lost other listed.1 listed.2 with counted | ⟨name, targeted, known⟩
    · exact counted
    · exact absurd ⟨other, listed.1, name, targeted, known⟩ found

end

theorem quorum_of_lost {spared : Nat} (filled : voters.isEmpty = false)
    (lost : (voters.toList.filter (fun id => next.isLost nodes id)).length ≤ spared)
    (few : spared ≤ (voters.size - 1) / 2)
    : next.HasQuorum voters nodes := by
  have whole : voters.size
      = (voters.toList.filter (fun id => next.isLost nodes id)).length
        + (voters.toList.filter (fun id => !next.isLost nodes id)).length := by
    rw [← length_toList]
    exact List.length_eq_length_filter_add _
  have inhabited : voters.size ≠ 0 := by
    rw [isEmpty_eq_size_beq_zero] at filled
    simpa using filled
  unfold HasQuorum
  omega

section

variable (configured : state.Configured voters nodes)
include configured

/-- A granted fault leaves a majority, if the unavailable voters include the decommissioned
ones. -/
theorem quorum_reserved (quorum : state.HasQuorum voters nodes) {reservation : NodeFaultReservation}
    {membershipLogId : Option LogId} {unavailable : BTreeSet Nat} {answer : CouncilResponse}
    (counts : reservation.request.faultType ≠ .nodeDrain
        → ∀ id ∈ voters, nodes[id]?.any state.security.isRetired = true → id ∈ unavailable)
    (reserved : state.reserveNodeFault reservation membershipLogId unavailable
        = .ok (answer, next))
    : next.HasQuorum voters nodes := by
  obtain ⟨enough, granted, sameSecurity⟩ := reserveNodeFault_eq_ok reserved
  rcases reserveFault_eq_ok granted with ⟨_, unchanged⟩ | ⟨_, _, started⟩
  · refine quorum.mono (isLost_mono (fun name => ?_) (fun name => ?_))
    · rw [sameSecurity]
      exact id
    · rw [isFaulted, unchanged]
      exact id
  · by_cases drains : reservation.request.faultType = .nodeDrain
    · refine quorum.mono (isLost_mono (fun name => ?_) (fun name faulted => ?_))
      · rw [sameSecurity]
        exact id
      · simp [isFaulted, started, drains] at faulted
    rw [configured.voterIds] at enough
    refine quorum_of_lost configured.filled (lost_length_le configured
      reservation.request.targetNode fun id isVoter lost => ?_) (enough drains)
    unfold isLost at lost
    cases known : nodes[id]? with
    | none => simp [known] at lost
    | some name =>
      simp only [known, Option.any_some, Bool.or_eq_true] at lost
      rcases lost with retired | faulted
      · left
        rw [sameSecurity] at retired
        have counted := counts drains id isVoter (by simp [known, retired])
        simp [counted, isVoter]
      · right
        simp only [isFaulted, started, Option.any_some, Bool.and_eq_true, beq_iff_eq]
          at faulted
        exact ⟨name, faulted.2, rfl⟩

/-- Decommissioning leaves a majority. -/
theorem quorum_decommissioned
    (quorum : state.HasQuorum voters nodes) {nodeId retiredBy reason : String}
    {retiredAtUnixMs : Nat} {membershipLogId : Option LogId} {answer : CouncilResponse}
    (retired : state.decommissionNode nodeId retiredBy reason retiredAtUnixMs membershipLogId
        = .ok (answer, next))
    : next.HasQuorum voters nodes := by
  rcases decommissionNode_eq_ok retired with rfl | ⟨_, enough, idle, retires⟩
  · exact quorum
  obtain ⟨_, membership⟩ := configured.stable
  have remain := enough voters (by simp [membership]) configured.filled
  refine remain.trans (List.Sublist.length_le (List.monotone_filter_right _ ?_))
  intro id stays
  rw [membership] at stays
  cases known : nodes[id]? with
  | none => simp [known] at stays
  | some name =>
    simp only [known, Option.any_some, Bool.and_eq_true, bne_iff_ne, ne_eq,
      Bool.not_eq_true'] at stays
    have notRetired : next.security.isRetired name = false := by
      cases found : next.security.isRetired name with
      | false => rfl
      | true =>
        rcases retires name found with same | before
        · exact absurd same stays.1
        · rw [before] at stays
          exact absurd stays.2 (by simp)
    simp [isLost, known, notRetired, isFaulted, idle]

theorem quorum_step
    (counts : CountsRetired voters nodes state entry) (quorum : state.HasQuorum voters nodes)
    : (state.step S entry).HasQuorum voters nodes := by
  refine step_preserves [.retiredNodes, .faults] (by decide)
    (fun before after same (holds : before.HasQuorum voters nodes) => ?_) entry ?_ quorum
  · show after.HasQuorum voters nodes
    have retired := same .retiredNodes (by simp)
    have faults := same .faults (by simp)
    simp only [Area.Agrees] at retired faults
    refine holds.mono (isLost_mono (fun name => ?_) (fun name => ?_))
    · rw [isRetired, retired]
      exact id
    · rw [isFaulted, faults]
      exact id
  · intro request answer next payload touches handled
    cases request with
    | reserveNodeFault reservation logId unavailable =>
      simp only [CountsRetired, payload] at counts
      exact quorum_reserved (configured.atEntry entry.logId) quorum counts handled
    | releaseNodeFault sequence =>
      obtain ⟨_, released, accepted⟩ := bind_eq_ok.mp handled
      cases accepted
      obtain ⟨_, idle, _⟩ := releaseFault_eq_ok (mapError_eq_ok.mp released)
      refine quorum.mono (isLost_mono (fun _ => id) (fun name faulted => ?_))
      simp [isFaulted, idle] at faulted
    | decommissionNode nodeId retiredBy reason retiredAt logId =>
      exact quorum_decommissioned (configured.atEntry entry.logId) quorum handled
    | securityStateInit security =>
      simp only [CountsRetired, payload] at counts
      obtain ⟨_, _, accepted⟩ := bind_eq_ok.mp handled
      cases accepted
      exact quorum.mono (isLost_mono counts (fun _ => id))
    | _ => simp [CouncilRequest.touches] at touches

end

end

-- Sequence numbers and releases

def grantedFault (S : Surroundings) (state : DesiredState) (entry : CouncilEntry) : Option Nat :=
  let started := (state.step S entry).nodeFaultReservations.active
  if started = state.nodeFaultReservations.active then none else started.map (·.sequence)

/-- An entry leaves the reservations alone, starts one under the next number, or ends the one in
progress. -/
theorem faults_step (S : Surroundings) (state : DesiredState) (entry : CouncilEntry)
    : (state.step S entry).nodeFaultReservations = state.nodeFaultReservations
      ∨ (∃ started, state.nodeFaultReservations.active = none
        ∧ started.sequence = state.nodeFaultReservations.lastSequence + 1
        ∧ (state.step S entry).nodeFaultReservations = ⟨started.sequence, some started⟩)
      ∨ ((state.step S entry).nodeFaultReservations
          = { state.nodeFaultReservations with active := none }
        ∧ ∀ active, state.nodeFaultReservations.active = some active → entry.Ends active) := by
  rcases step_cases S state entry with
    ⟨request, _, _, payload, handled, _, after⟩ | ⟨_, _, after⟩
  · rw [after]
    by_cases touches : Area.faults ∈ request.touches
    · cases request with
      | reserveNodeFault reservation logId unavailable =>
        obtain ⟨_, granted, _⟩ := reserveNodeFault_eq_ok handled
        rcases reserveFault_eq_ok granted with ⟨_, unchanged⟩ | ⟨idle, numbered, started⟩
        · exact .inl unchanged
        · exact .inr (.inl ⟨reservation, idle, numbered, started⟩)
      | releaseNodeFault sequence =>
        obtain ⟨reservations, released, accepted⟩ := bind_eq_ok.mp handled
        cases accepted
        obtain ⟨_, idle, own⟩ := releaseFault_eq_ok (mapError_eq_ok.mp released)
        refine .inr (.inr ⟨?_, fun active held => .inl (own active held ▸ payload)⟩)
        cases reservations
        simp_all
      | decommissionNode nodeId retiredBy reason retiredAt logId =>
        rcases decommissionNode_eq_ok handled with rfl | ⟨own, _, idle, _⟩
        · exact .inl rfl
        · exact .inr (.inr ⟨idle, fun active held =>
            .inr ⟨nodeId, retiredBy, reason, retiredAt, logId, payload, own active held⟩⟩)
      | _ => simp [CouncilRequest.touches, specAreas] at touches
    · exact .inl (handle_frames request _ handled .faults touches)
  · exact .inl (by rw [after])

/-- No sequence number is granted twice. -/
theorem grantedFaults_nodup (S : Surroundings) (state : DesiredState)
    (entries : List CouncilEntry)
    : (Runs.outputs (step S) (grantedFault S) state entries).Nodup := by
  have always : Runs.Meets (step S) (fun _ _ => True) state entries :=
    Runs.meets_of_forall fun _ _ => trivial
  refine (always.outputs_increase
    (fun state => state.nodeFaultReservations.lastSequence + 1) ?_ ?_).1.imp Nat.ne_of_lt
  · intro state entry _
    rcases faults_step S state entry with same | ⟨_, _, numbered, after⟩ | ⟨after, _⟩
    · rw [same]
    · simp [after, numbered]
    · simp [after]
  · intro state entry number _ granted
    unfold grantedFault at granted
    rcases faults_step S state entry with same | ⟨_, idle, numbered, after⟩ | ⟨after, _⟩
    · simp [same] at granted
    · simp only [after, idle, reduceCtorEq, if_false, Option.map_some, Option.some.injEq]
        at granted
      simp [after, ← granted, numbered]
    · simp [after] at granted

/-- While the voters stay one configuration: a majority of them stays neither decommissioned nor
under a fault if every reservation counts the decommissioned ones as unavailable; and in any run
no sequence number is granted twice and a reservation is ended only by its own number or by its
target's decommissioning. -/
theorem run_keeps_quorum (S : Surroundings) (start : DesiredState) (voters : BTreeSet Nat)
    (nodes : BTreeMap Nat String) (configured : start.Configured voters nodes)
    (quorum : start.HasQuorum voters nodes) (entries : List CouncilEntry)
    (keeps : ∀ entry ∈ entries, entry.KeepsMembership)
    : (Runs.Meets (step S) (CountsRetired voters nodes) start entries
        → (start.run S entries).HasQuorum voters nodes)
      ∧ (Runs.outputs (step S) (grantedFault S) start entries).Nodup
      ∧ ∀ before entry after active,
          entries = before ++ entry :: after
          → (start.run S before).nodeFaultReservations.active = some active
          → (start.run S (before ++ [entry])).nodeFaultReservations.active = some active
            ∨ ((start.run S (before ++ [entry])).nodeFaultReservations.active = none
              ∧ entry.Ends active) := by
  refine ⟨fun counts => ?_, grantedFaults_nodup S start entries, ?_⟩
  · have both : Runs.Meets (step S)
        (fun state entry => entry.KeepsMembership ∧ CountsRetired voters nodes state entry)
        start entries := (Runs.meets_of_forall keeps).and counts
    refine (both.invariant
      (fun state => state.Configured voters nodes ∧ state.HasQuorum voters nodes) ?_
      ⟨configured, quorum⟩).2
    intro state entry holds meets
    exact ⟨holds.1.step meets.1, quorum_step holds.1 meets.2 holds.2⟩
  · intro before entry after active _ held
    simp only [run, Runs.run_append, Runs.run_cons, Runs.run_nil]
    rcases faults_step S (start.run S before) entry with same | ⟨_, idle, _⟩ | ⟨ended, own⟩
    · exact .inl (same ▸ held)
    · rw [idle] at held
      cases held
    · exact .inr ⟨by rw [run] at ended; rw [ended], own active held⟩

-- A reservation that ignores a decommissioned voter

def threeVoterIds : BTreeSet Nat :=
  ["a", "b", "c"].foldl (fun voters name => voters.insert (raftIdFromName name)) ∅

def threeVoterNames : BTreeMap Nat String :=
  ["a", "b", "c"].foldl (fun nodes name => nodes.insert (raftIdFromName name) name) ∅

def threeVoters : DesiredState where
  membership := ⟨some ⟨1, 1⟩, [threeVoterIds], threeVoterNames⟩

def killVoter (target : String) (unavailable : BTreeSet Nat) : CouncilRequest :=
  .reserveNodeFault
    { sequence := 1
      bootId := "boot"
      request := ⟨.nodeKill false, some target, 60, ""⟩
      cleanupAfterUnixMs := 60000 }
    (some ⟨1, 1⟩) unavailable

def retireVoter (name : String) : CouncilRequest :=
  .decommissionNode name "operator" "disk failed" 1 (some ⟨1, 1⟩)

theorem threeVoters_configured : threeVoters.Configured threeVoterIds threeVoterNames := by
  refine ⟨⟨some ⟨1, 1⟩, rfl⟩, by decide +kernel, ?_⟩
  have named : ∀ id ∈ threeVoterIds.toList, ∀ other ∈ threeVoterIds.toList,
      threeVoterNames[id]? = threeVoterNames[other]? → id = other := by
    decide +kernel
  intro id isVoter other alsoVoter name first second
  exact named id (mem_toList.mpr isVoter) other
    (mem_toList.mpr alsoVoter) (first.trans second.symm)

theorem threeVoters_quorum : threeVoters.HasQuorum threeVoterIds threeVoterNames := by
  unfold HasQuorum
  decide +kernel

/-- One of three voters is decommissioned; a fault on another is then granted, since only the
sender's count of unavailable voters is looked at. -/
theorem fault_after_decommission_loses_quorum
    : ¬ ∀ (S : Surroundings) (start : DesiredState) (voters : BTreeSet Nat)
        (nodes : BTreeMap Nat String) (entries : List CouncilEntry),
        start.Configured voters nodes
        → start.HasQuorum voters nodes
        → (∀ entry ∈ entries, entry.KeepsMembership)
        → (start.run S entries).HasQuorum voters nodes := by
  intro claimed
  have kept := claimed plainSurroundings threeVoters threeVoterIds threeVoterNames
    (requestEntries 2 [retireVoter "a", killVoter "b" ∅]) threeVoters_configured
    threeVoters_quorum (by simp [requestEntries, CouncilEntry.KeepsMembership])
  revert kept
  unfold HasQuorum
  decide +kernel

/-- A voter is killed and then decommissioned. -/
theorem fault_before_decommission_keeps_quorum
    : (threeVoters.run plainSurroundings
          (requestEntries 2 [killVoter "b" ∅, retireVoter "b"])).HasQuorum
        threeVoterIds threeVoterNames := by
  have kept := run_keeps_quorum plainSurroundings threeVoters threeVoterIds threeVoterNames
    threeVoters_configured threeVoters_quorum
    (requestEntries 2 [killVoter "b" ∅, retireVoter "b"])
    (by simp [requestEntries, CouncilEntry.KeepsMembership])
  refine kept.1 ⟨fun _ id _ gone => ?_, trivial, trivial⟩
  cases named : threeVoterNames[id]? <;> simp [named, isRetired, threeVoters] at gone

end DesiredState

end Reliaburger
