import Reliaburger.Leader.SyncPlan

/-! What the grants of a fitted plan let start: exactly what they were charged for, and with the
next planned chunk more than there is room for.
-/

namespace Reliaburger

open BTreeMap IndexRangeSet TaskArrayState

namespace TaskArrayState

variable {state : TaskArrayState}

-- Tasks of chunk sets

/-- A union has the tasks of its parts, but for those of the chunks they share. -/
theorem tasksIn_extendFrom (state : TaskArrayState) (left right : IndexRangeSet)
    : state.tasksIn (left.extendFrom right)
        + ∑ chunk ∈ left.toFinset ∩ right.toFinset, state.tasksOfChunk chunk
      = state.tasksIn left + state.tasksIn right := by
  have union : (left.extendFrom right).toFinset = left.toFinset ∪ right.toFinset := by
    ext chunk
    simp
  simp only [tasksIn_eq_sum, union, Finset.sum_union_inter]

theorem tasksIn_extendFrom_apart {left right : IndexRangeSet}
    (apart : ∀ chunk ∈ right, chunk ∉ left)
    : state.tasksIn (left.extendFrom right) = state.tasksIn left + state.tasksIn right := by
  have none : left.toFinset ∩ right.toFinset = ∅ := by
    rw [← Finset.disjoint_iff_inter_eq_empty, Finset.disjoint_right]
    simpa using apart
  simpa [none] using state.tasksIn_extendFrom left right

theorem tasksIn_mono {part whole : IndexRangeSet} (subset : ∀ chunk ∈ part, chunk ∈ whole)
    : state.tasksIn part ≤ state.tasksIn whole := by
  simp only [tasksIn_eq_sum]
  refine Finset.sum_le_sum_of_subset (fun chunk member => ?_)
  simpa using subset chunk (by simpa using member)

theorem tasksIn_congr {next : TaskArrayState} (same : next.spec = state.spec)
    : next.tasksIn = state.tasksIn := by
  funext chunks
  simp only [tasksIn, same]

theorem heldTasks_eq (state : TaskArrayState) (node : NodeId)
    : state.heldTasks node = state.tasksIn ((state.heldBy node).getD ∅) := by
  unfold heldTasks
  cases state.heldBy node with
  | none => simp [tasksIn_eq_sum, show (∅ : IndexRangeSet).toFinset = ∅ from rfl]
  | some held => rfl

-- Attempts in flight

/-- Attempts that the nodes can have running at once with what they hold, where a node has so many
slots. -/
def attemptsInFlight (state : TaskArrayState) (slots : NodeId → Nat) : Nat :=
  BTreeMap.total (fun node chunks => min (state.tasksIn chunks) (slots node)) state.grants

/-- A report takes a chunk out of flight, if anything. -/
theorem attemptsInFlight_complete (state : TaskArrayState) (slots : NodeId → Nat) (node : NodeId)
    (result : ChunkResult)
    : (state.step (.complete node result)).attemptsInFlight slots
      ≤ state.attemptsInFlight slots := by
  have sameSpec : (state.step (.complete node result)).spec = state.spec :=
    spec_run state [.complete node result]
  rcases step_complete state node result with same | ⟨_, accepts, tallied⟩
  · rw [same]
  have grants : (state.step (.complete node result)).grants
      = releaseGrant state.grants node result.chunk := by
    rcases tallied with same | stops
    · rw [same, tally_grants]
    · rw [stops, stop]
      split <;> exact tally_grants state node result
  simp only [attemptsInFlight, grants, tasksIn_congr sameSpec, releaseGrant, accepts.holds]
  rw [total_of_get _ accepts.holds]
  split
  · exact Nat.le_add_left _ _
  rw [total_insert]
  refine Nat.add_le_add_right (min_le_min_right _ (tasksIn_mono fun chunk member => ?_)) _
  exact (mem_remove.mp member).1

theorem attemptsInFlight_reports (state : TaskArrayState) (slots : NodeId → Nat)
    (reports : List (NodeId × ChunkResult))
    : (state.run (reports.map (fun report => .complete report.1 report.2))).attemptsInFlight slots
      ≤ state.attemptsInFlight slots := by
  induction reports generalizing state with
  | nil => exact le_rfl
  | cons report rest ih =>
    exact (ih _).trans (attemptsInFlight_complete state slots report.1 report.2)

/-- A grant leaves the other nodes' chunks alone. -/
theorem heldBy_grant_ne (state : TaskArrayState) {node other : NodeId} (chunks : IndexRangeSet)
    (different : node ≠ other)
    : (state.step (.grant node chunks)).heldBy other = state.heldBy other := by
  rcases step_grant state node chunks with same | ⟨_, _, _, _, same⟩
  · rw [same]
  · rw [same]
    exact get_insert_ne _ _ different

/-- A grant that is accepted adds what its node can run of all its chunks to what the others run. -/
theorem attemptsInFlight_grant {slots : NodeId → Nat} {node : NodeId} {chunks : IndexRangeSet}
    (accepts : state.accepts (.grant node chunks) = true)
    : (state.step (.grant node chunks)).attemptsInFlight slots + state.inFlightOn node (slots node)
      = state.attemptsInFlight slots
        + min (state.tasksIn (((state.heldBy node).getD ∅).extendFrom chunks)) (slots node) := by
  simp only [TaskArrayState.accepts, step] at accepts ⊢
  cases granted : state.grant node chunks with
  | error refused => simp [granted, Except.isOk, Except.toBool] at accepts
  | ok next =>
    obtain ⟨_, _, _, ⟨none, rfl⟩ | ⟨_, rfl⟩⟩ := grant_ok granted
    · have nothing : ∀ held : IndexRangeSet, held.extendFrom chunks = held :=
        fun held => ext_mem fun chunk => by simp [none chunk]
      simp only [inFlightOn, heldTasks_eq, nothing]
    simp only [attemptsInFlight, handOut, total_insert]
    rw [show ∀ held : IndexRangeSet, tasksIn { state with
          queued := chunks.ranges.foldl
            (fun queued range => queued.removeRange range.1 range.2) state.queued
          grants := state.grants.insert node held } = state.tasksIn from fun _ => rfl]
    cases holds : state.grants[node]? with
    | none =>
      rw [erase_eq_self holds]
      simp only [inFlightOn, heldTasks, heldBy, holds, Option.map_none, Option.getD_none]
      omega
    | some held =>
      rw [total_of_get _ holds]
      simp only [inFlightOn, heldTasks, heldBy, holds, Option.map_some, Option.getD_some]
      omega

end TaskArrayState

-- Grants of a plan

theorem planCost_granting (state : TaskArrayState) (slots : NodeId → Nat)
    (plan : List (NodeId × IndexRangeSet))
    : planCost state slots (granting plan) = planCost state slots plan := by
  induction plan with
  | nil => rfl
  | cons entry rest ih =>
    rw [granting_cons]
    cases none : entry.2.isEmpty with
    | true =>
      have free : state.tasksIn entry.2 = 0 := by
        simp [TaskArrayState.tasksIn_eq_sum, toFinset,
          isEmpty_iff_iter.mp none]
      simpa [planCost, grantCost, inFlightOn, free] using ih
    | false => simpa [planCost] using ih

theorem FitsPlan.cost {state : TaskArrayState} {slots : NodeId → Nat} {room : Nat}
    {fitted : FittedGrants} {plan : List (NodeId × IndexRangeSet)}
    (fits : FitsPlan state slots room fitted plan)
    : planCost state slots fitted.grants = fitted.started := by
  cases fits with
  | whole grants started => rw [grants, planCost_granting, started]
  | cut _ _ _ grants started => rw [grants, planCost_granting, started]

variable {state : TaskArrayState} {slots : NodeId → Nat} {grants : List (NodeId × IndexRangeSet)}

/-- Grants to different nodes start no more than they cost, and as much if they are all accepted
and name chunks that their nodes do not hold. By induction on the grants: the nodes still to come
hold what they held at first. -/
theorem attemptsInFlight_grants (distinct : (grants.map Prod.fst).Nodup)
    (current : TaskArrayState) (sameSpec : current.spec = state.spec)
    (sameHeld : ∀ entry ∈ grants, current.heldBy entry.1 = state.heldBy entry.1)
    : (current.run (grants.map (fun entry => .grant entry.1 entry.2))).attemptsInFlight slots
        ≤ current.attemptsInFlight slots + planCost state slots grants
      ∧ ∀ final, current.AllAccepted (grants.map (fun entry => .grant entry.1 entry.2)) final
        → (∀ entry ∈ grants, ∀ chunk ∈ entry.2, chunk ∉ (state.heldBy entry.1).getD ∅)
        → final.attemptsInFlight slots
          = current.attemptsInFlight slots + planCost state slots grants := by
  induction grants generalizing current with
  | nil =>
    refine ⟨le_rfl, fun final accepted _ => ?_⟩
    cases accepted
    rfl
  | cons entry rest ih =>
    obtain ⟨node, chunks⟩ := entry
    obtain ⟨new, others⟩ := List.nodup_cons.mp distinct
    obtain ⟨holds, later⟩ := List.forall_mem_cons.mp sameHeld
    have first : (current.step (.grant node chunks)).spec = state.spec :=
      (spec_run current [.grant node chunks]).trans sameSpec
    obtain ⟨most, exact⟩ := ih others (current.step (.grant node chunks)) first
      fun entry member => (current.heldBy_grant_ne chunks fun same =>
        new (List.mem_map.mpr ⟨entry, member, same.symm⟩)).trans (later entry member)
    have union := state.tasksIn_extendFrom ((state.heldBy node).getD ∅) chunks
    rw [← state.heldTasks_eq] at union
    have grows : state.heldTasks node
        ≤ state.tasksIn (((state.heldBy node).getD ∅).extendFrom chunks) := by
      rw [state.heldTasks_eq]
      exact tasksIn_mono fun chunk held =>
        mem_extendFrom.mpr (.inl held)
    have granted := @attemptsInFlight_grant current slots node chunks
    simp only [inFlightOn, heldTasks_eq, holds,
      tasksIn_congr sameSpec] at granted
    rw [← state.heldTasks_eq] at granted
    have cost : planCost state slots ((node, chunks) :: rest)
        = min (state.heldTasks node + state.tasksIn chunks) (slots node)
          - min (state.heldTasks node) (slots node) + planCost state slots rest := by
      simp [planCost, grantCost, inFlightOn]
    refine ⟨?_, fun final accepted apart => ?_⟩
    · refine most.trans ?_
      cases accepts : current.accepts (.grant node chunks) with
      | true =>
        have added := granted accepts
        omega
      | false =>
        have same : current.step (.grant node chunks) = current := by
          simp only [TaskArrayState.accepts, TaskArrayState.step] at accepts ⊢
          cases granted : current.grant node chunks with
          | error => rfl
          | ok next => simp [granted, Except.isOk, Except.toBool] at accepts
        rw [same]
        omega
    · obtain ⟨accepts, afterwards⟩ := TaskArrayState.allAccepted_cons.mp accepted
      obtain ⟨here, inRest⟩ := List.forall_mem_cons.mp apart
      simp only at here
      have added := granted accepts
      rw [tasksIn_extendFrom_apart here, ← state.heldTasks_eq] at added
      rw [exact final afterwards inRest]
      omega

/-- Once the grants are made one after another, so many more attempts can run; to valid nodes they
are all accepted. -/
def Starts (state : TaskArrayState) (slots : NodeId → Nat) (grants : List (NodeId × IndexRangeSet))
    (attempts : Nat)
    : Prop :=
  (∀ final, state.AllAccepted (grants.map (fun entry => .grant entry.1 entry.2)) final
    → final.attemptsInFlight slots = state.attemptsInFlight slots + attempts)
  ∧ ((∀ entry ∈ grants, validNodeId entry.1 = true)
    → ∃ final, state.AllAccepted (grants.map (fun entry => .grant entry.1 entry.2)) final)

/-- Grants of the lowest queued chunks start what they cost. -/
theorem starts_of_drawn (reachable : state.Reachable) (running : state.stopped = none)
    (distinct : (grants.map Prod.fst).Nodup) (drawn : planned grants <+: state.queued.iter)
    : Starts state slots grants (planCost state slots grants) := by
  have queued : ∀ chunk ∈ planned grants, chunk ∈ state.queued :=
    fun chunk listed => mem_iter.mp (drawn.subset listed)
  obtain ⟨_, shown⟩ := reachable.accounted.shown
  refine ⟨fun final accepted => ?_, fun valid =>
    granted_in_turn running valid (drawn.sublist.nodup (nodup_iter _)) queued⟩
  refine (attemptsInFlight_grants distinct state rfl fun _ _ => rfl).2 final accepted ?_
  intro entry listed chunk granted held
  cases holds : state.heldBy entry.1 with
  | none => simp [holds] at held
  | some chunks =>
    have placed : state.Placed chunk (.held entry.1) := ⟨chunks, holds, by simpa [holds] using held⟩
    have waiting : state.Placed chunk .queued := queued chunk (mem_planned listed granted)
    cases shown.unique waiting placed

theorem planGrants_some {nodes : List NodeSlots} {lookahead : Bool} {entry : NodeId × IndexRangeSet}
    (listed : entry ∈ planGrants state nodes lookahead)
    : state.stopped = none ∧ entry.2.isEmpty = false := by
  unfold planGrants at listed
  split at listed
  · cases listed
  rename_i running
  obtain ⟨_, _, bounded, _⟩ := planEach_spec state lookahead state.queued _
  exact ⟨by simpa using running, (bounded entry listed).1⟩

/-- Of every plan, the grants that fit are the first ones, the last of them perhaps cut to its
lowest chunks. They start as many attempts as the plan is charged for, within the room; and with the
next planned chunk there would be as many more as are reported held back, beyond the room. -/
theorem fitted_grants_start_what_fits (reachable : state.Reachable) (nodes : List NodeSlots)
    (lookahead : Bool) (room : Nat)
    : let plan := planGrants state nodes lookahead
      let fitted := fitGrants state nodes plan room
      fitted.started ≤ room
      ∧ Starts state (slotsOf nodes) fitted.grants fitted.started
      ∧ (fitted.grants = plan ∧ fitted.heldBack = none
        ∨ ∃ whole node chunks later count more,
            plan = whole ++ (node, chunks) :: later
            ∧ count < chunks.len
            ∧ fitted.grants
              = whole ++ (if count = 0 then [] else [(node, (chunks.takeFirst count).1)])
            ∧ fitted.heldBack = some more
            ∧ room - fitted.started < more
            ∧ Starts state (slotsOf nodes) (whole ++ [(node, (chunks.takeFirst (count + 1)).1)])
              (fitted.started + more)) := by
  have distinct := nodup_planGrants state nodes lookahead
  have drawn := planGrants_drawn state nodes lookahead
  have granted := @planGrants_some state nodes lookahead
  obtain ⟨within, fits⟩ := fitGrants_fits state nodes (planGrants state nodes lookahead) room
  dsimp only
  generalize planGrants state nodes lookahead = plan at *
  generalize fitGrants state nodes plan room = fitted at *
  have starts {grants : List (NodeId × IndexRangeSet)}
      (drawnFirst : planned grants <+: planned plan)
      (sublist : (grants.map Prod.fst).Sublist (plan.map Prod.fst))
      : Starts state (slotsOf nodes) grants (planCost state (slotsOf nodes) grants) := by
    cases grants with
    | nil => exact ⟨fun final accepted => by cases accepted; rfl, fun _ => ⟨state, rfl⟩⟩
    | cons entry rest =>
      obtain ⟨entry, listed, _⟩ := List.mem_map.mp (sublist.subset List.mem_cons_self)
      exact starts_of_drawn reachable (granted listed).1 (sublist.nodup distinct)
        (drawnFirst.trans drawn)
  refine ⟨within, fits.cost ▸ starts fits.drawn fits.nodes_sublist, ?_⟩
  cases fits with
  | whole grants started none =>
    rw [granting,
      List.filter_eq_self.mpr fun entry listed => by simp [(granted listed).2]] at grants
    exact .inl ⟨grants, none⟩
  | @cut whole later node chunks count more short grants started held next beyond =>
    refine .inr ⟨whole, node, chunks, later, count, more, rfl, short, ?_, held, by omega, ?_⟩
    · have all : granting whole = whole := List.filter_eq_self.mpr fun entry listed => by
        simp [(granted (List.mem_append_left _ listed)).2]
      have empty : (chunks.takeFirst count).1.isEmpty = true ↔ count = 0 := by
        rw [isEmpty_iff_iter, (chunks.iter_takeFirst count).1, List.take_eq_nil_iff,
          ← List.length_eq_zero_iff, chunks.length_iter]
        omega
      rw [grants, granting, List.filter_append, ← granting, ← granting, all, granting_cons]
      simp [empty]
    · rw [← next]
      refine starts ?_ (by simp)
      simp only [planned, List.flatMap_append, List.flatMap_cons, List.flatMap_nil,
        List.append_nil, (chunks.iter_takeFirst (count + 1)).1]
      exact (List.prefix_append_right_inj _).mpr
        ((List.take_prefix _ _).trans (List.prefix_append _ _))

def twoSlots : List NodeSlots := [⟨"node-a", 2⟩]

/-- There is room for one attempt: of the chunks planned for two, the second is held back. -/
theorem second_chunk_held_back
    : ∃ initial,
        TaskArrayState.new { TaskArraySpec.withCount 3 with chunkSize := 1 } 0 = .ok initial
        ∧ (fitGrants initial twoSlots (planGrants initial twoSlots false) 1).heldBack = some 1
        ∧ Starts initial (slotsOf twoSlots)
          (fitGrants initial twoSlots (planGrants initial twoSlots false) 1).grants 1 := by
  have created : new { TaskArraySpec.withCount 3 with chunkSize := 1 } 0
      = .ok _ := rfl
  refine ⟨_, created, by decide +kernel, ?_⟩
  exact (fitted_grants_start_what_fits ⟨_, _, _, [], created, rfl⟩ twoSlots false 1).2.1

end Reliaburger
