import Reliaburger.Leader.Grants
import Reliaburger.Store.TerminalStatus

/-! A planned sync applies in full: every report it passes on is accepted again, and every grant
names chunks that are still queued when its turn comes.
-/

namespace Reliaburger

open IndexRangeSet TaskArrayState TaskArrays

variable {P : Platform} {ids : Nat → Nat}

-- Calls that are all accepted

namespace TaskArrayState

def AllAccepted (state : TaskArrayState) (ops : List ArrayOp) (final : TaskArrayState) : Prop :=
  state.runCounting ops = (final, ops.length, 0)

variable {state : TaskArrayState}

theorem allAccepted_cons {final : TaskArrayState} {op : ArrayOp} {rest : List ArrayOp}
    : state.AllAccepted (op :: rest) final
      ↔ state.accepts op = true ∧ (state.step op).AllAccepted rest final := by
  unfold AllAccepted
  simp only [runCounting, List.length_cons]
  generalize (state.step op).runCounting rest = counted
  obtain ⟨last, applied, refused⟩ := counted
  cases state.accepts op <;> simp

theorem AllAccepted.append {middle final : TaskArrayState} {first second : List ArrayOp}
    (one : state.AllAccepted first middle) (two : middle.AllAccepted second final)
    : state.AllAccepted (first ++ second) final := by
  induction first generalizing state with
  | nil =>
    cases one
    exact two
  | cons op rest ih =>
    obtain ⟨accepts, later⟩ := allAccepted_cons.mp one
    exact allAccepted_cons.mpr ⟨accepts, ih later⟩

theorem AllAccepted.run_eq {final : TaskArrayState} {ops : List ArrayOp}
    (accepted : state.AllAccepted ops final)
    : state.run ops = final := by
  rw [← runCounting_fst, accepted]

-- Reports

/-- The reports that the planner passes on are the ones its preview is made of; by induction on
all reports. -/
theorem preview_accepted (state : TaskArrayState) (answers : List (NodeId × ArrayProgress))
    : state.AllAccepted
        ((state.preview answers).2.map (fun report => .complete report.1 report.2))
        (state.preview answers).1 := by
  unfold preview
  generalize answers.flatMap (fun answer =>
    answer.2.finished.map (fun result => (answer.1, result))) = reports
  suffices extend : ∀ (reports : List (NodeId × ChunkResult))
      (sofar : TaskArrayState × List (NodeId × ChunkResult)),
      state.AllAccepted (sofar.2.map (fun report => .complete report.1 report.2)) sofar.1
      → state.AllAccepted
          ((reports.foldl state.previewReport sofar).2.map
            (fun report => .complete report.1 report.2))
          (reports.foldl state.previewReport sofar).1 from
    extend reports (state, []) rfl
  intro reports
  induction reports with
  | nil => exact fun _ sofar => sofar
  | cons report rest ih =>
    intro sofar accepted
    refine ih _ ?_
    unfold previewReport
    split
    · exact accepted
    split
    · rename_i completed
      rw [List.map_append]
      refine accepted.append (allAccepted_cons.mpr ⟨?_, ?_⟩)
      · simp [accepts, completed, Except.isOk, Except.toBool]
      · simp [AllAccepted, runCounting, step, completed]
    · exact accepted

-- Grants

/-- A grant of queued chunks to a valid node of a running array is accepted. -/
theorem grant_of_queued {node : NodeId} {chunks : IndexRangeSet} (owner : validNodeId node = true)
    (running : state.stopped = none) (queued : ∀ chunk ∈ chunks, chunk ∈ state.queued)
    : ∃ next,
        state.grant node chunks = .ok next
        ∧ next.stopped = none
        ∧ ∀ chunk ∈ state.queued, chunk ∉ chunks → chunk ∈ next.queued := by
  have covered : chunks.ranges.find?
      (fun range => !state.queued.containsRange range.1 range.2) = none := by
    rw [List.find?_eq_none]
    intro range stored
    simp only [Bool.not_eq_true, Bool.not_eq_false', containsRange_iff]
    exact fun index low high => queued index ⟨range, stored, low, high⟩
  unfold grant
  rw [if_neg (by simp [owner]), if_neg (by simp [running]), covered]
  simp only
  split
  · exact ⟨state, rfl, running, fun chunk member _ => member⟩
  · refine ⟨_, rfl, running, fun chunk member outside => ?_⟩
    exact mem_removeRanges.mpr ⟨member, outside⟩

end TaskArrayState

variable {plan grants : List (NodeId × IndexRangeSet)} {queue : IndexRangeSet}
  {state : TaskArrayState} {nodes : List NodeSlots} {lookahead : Bool}

/-- The entries of a plan that grant something. -/
def granting (plan : List (NodeId × IndexRangeSet)) : List (NodeId × IndexRangeSet) :=
  plan.filter (fun entry => !entry.2.isEmpty)

theorem mem_granting {entry : NodeId × IndexRangeSet}
    : entry ∈ granting plan ↔ entry ∈ plan ∧ entry.2.isEmpty = false := by
  simp [granting]

@[simp] theorem granting_nil : granting [] = [] :=
  rfl

theorem granting_cons (node : NodeId) (chunks : IndexRangeSet)
    (plan : List (NodeId × IndexRangeSet))
    : granting ((node, chunks) :: plan)
      = (if chunks.isEmpty then [] else [(node, chunks)]) ++ granting plan := by
  cases empty : chunks.isEmpty <;> simp [granting, empty]

/-- The chunks of a plan, in the order granted. -/
def planned (plan : List (NodeId × IndexRangeSet)) : List Nat :=
  plan.flatMap (·.2.iter)

@[simp] theorem planned_granting (plan : List (NodeId × IndexRangeSet))
    : planned (granting plan) = planned plan := by
  induction plan with
  | nil => rfl
  | cons entry rest ih =>
    rw [granting_cons]
    cases none : entry.2.isEmpty with
    | true => simpa [planned, isEmpty_iff_iter.mp none] using ih
    | false => simpa [planned] using ih

theorem mem_planned {entry : NodeId × IndexRangeSet} {chunk : Nat} (listed : entry ∈ plan)
    (held : chunk ∈ entry.2)
    : chunk ∈ planned plan :=
  List.mem_flatMap.mpr ⟨entry, listed, mem_iter.mpr held⟩

/-- How many more chunks a node should hold, with its share of what is outstanding. -/
def wantedBy (state : TaskArrayState) (lookahead : Bool) (entry : NodeSlots × Nat) : Nat :=
  (if lookahead then state.observedGrantDepth entry.1.slots entry.2
    else grantDepth entry.1.slots state.spec.chunkSize) - state.heldCount entry.1.node

theorem planEach_cons (some : queue.isEmpty = false) (entry : NodeSlots × Nat)
    (rest : List (NodeSlots × Nat))
    : planEach state lookahead queue (entry :: rest)
      = granting [(entry.1.node, (queue.takeFirst (wantedBy state lookahead entry)).1)]
        ++ planEach state lookahead (queue.takeFirst (wantedBy state lookahead entry)).2 rest := by
  obtain ⟨_, _⟩ := entry
  simp only [planEach, some, Bool.false_eq_true, if_false, granting_cons, wantedBy]
  split <;> split <;> rfl

/-- Topping the nodes up in turn takes the lowest chunks of the queue: no node gets more than it
wants, nor less while any chunk is left. By induction on the nodes. -/
theorem planEach_spec (state : TaskArrayState) (lookahead : Bool) (queue : IndexRangeSet)
    (order : List (NodeSlots × Nat))
    : ∃ left : IndexRangeSet,
        planned (planEach state lookahead queue order) ++ left.iter = queue.iter
        ∧ (∀ grant ∈ planEach state lookahead queue order,
            grant.2.isEmpty = false
            ∧ ∃ entry ∈ order,
                entry.1.node = grant.1 ∧ grant.2.len ≤ wantedBy state lookahead entry)
        ∧ (left.isEmpty = false → ∀ entry ∈ order, 0 < wantedBy state lookahead entry
          → ∃ grant ∈ planEach state lookahead queue order,
              grant.1 = entry.1.node ∧ grant.2.len = wantedBy state lookahead entry) := by
  induction order generalizing queue with
  | nil => exact ⟨queue, by simp [planEach, planned]⟩
  | cons entry rest ih =>
    cases some : queue.isEmpty with
    | true => exact ⟨queue, by simp [planEach, planned, some]⟩
    | false =>
      rw [planEach_cons some]
      generalize wanted : wantedBy state lookahead entry = count
      obtain ⟨isTaken, isLeft⟩ := queue.iter_takeFirst count
      generalize queue.takeFirst count = parts at isTaken isLeft
      obtain ⟨taken, after⟩ := parts
      simp only at isTaken isLeft ⊢
      obtain ⟨left, drawn, bounded, filled⟩ := ih after
      have size : taken.len = min count queue.iter.length := by
        rw [← taken.length_iter, isTaken, List.length_take]
      refine ⟨left, ?_, fun grant listed => ?_, fun more other listed wants => ?_⟩
      · rw [planned, List.flatMap_append, List.append_assoc, ← planned, ← planned, drawn,
          planned_granting, isLeft]
        simp [planned, isTaken]
      · rcases List.mem_append.mp listed with here | later
        · obtain ⟨here, nonempty⟩ := mem_granting.mp here
          obtain rfl := List.mem_singleton.mp here
          exact ⟨nonempty, entry, List.mem_cons_self, rfl, by simp only; omega⟩
        · obtain ⟨nonempty, entry, inRest, facts⟩ := bounded grant later
          exact ⟨nonempty, entry, List.mem_cons_of_mem _ inRest, facts⟩
      · rcases List.mem_cons.mp listed with rfl | inRest
        · have remains := congrArg List.length (drawn.trans isLeft)
          have some : left.iter ≠ [] := fun none => by
            simp [isEmpty_iff_iter.mpr none] at more
          have positive := List.length_pos_iff.mpr some
          simp only [List.length_append, List.length_drop] at remains
          have full : taken.len = count := by omega
          refine ⟨(other.1.node, taken), List.mem_append_left _ (mem_granting.mpr ⟨by simp, ?_⟩),
            rfl, full.trans wanted.symm⟩
          rw [Bool.eq_false_iff, ne_eq, isEmpty_iff_iter, ← List.length_eq_zero_iff,
            taken.length_iter]
          omega
        · obtain ⟨grant, later, facts⟩ := filled more other inRest wants
          exact ⟨grant, List.mem_append_right _ later, facts⟩

theorem planGrants_drawn (state : TaskArrayState) (nodes : List NodeSlots) (lookahead : Bool)
    : planned (planGrants state nodes lookahead) <+: state.queued.iter := by
  unfold planGrants
  split
  · exact List.nil_prefix
  · obtain ⟨left, drawn, _⟩ := planEach_spec state lookahead state.queued _
    exact ⟨left.iter, drawn⟩

-- Fitting

/-- The chunks kept are the first ones, up to the first whose attempts do not fit; by induction on
the chunks, where `total` are the tasks that `held` shows as far as the slots go. -/
theorem fitChunks_spec {slots before room : Nat} (small : slots < u64Size) (chunks : List Nat)
    (held : Nat) (kept : IndexRangeSet) {total added : Nat}
    (shown : min held slots = min total slots) (spent : added = min total slots - before)
    (fits : added ≤ room)
    : let cost (count : Nat) :=
        min (total + ((chunks.take count).map state.tasksOfChunk).sum) slots - before
      ∃ count kept' heldBack,
        fitChunks state slots before room chunks held kept added = (kept', cost count, heldBack)
        ∧ (∀ chunk, chunk ∈ kept' ↔ chunk ∈ kept ∨ chunk ∈ chunks.take count)
        ∧ cost count ≤ room
        ∧ (chunks.length ≤ count ∧ heldBack = none
          ∨ count < chunks.length
            ∧ room < cost (count + 1)
            ∧ heldBack = some (cost (count + 1) - cost count)) := by
  intro cost
  induction chunks generalizing held kept total added with
  | nil => exact ⟨0, kept, none, by simp [fitChunks, cost, spent], by simp, by simp_all [cost]⟩
  | cons chunk rest ih =>
    have single : state.tasksIn (.fromRange chunk chunk) = state.tasksOfChunk chunk := by
      have only : (IndexRangeSet.fromRange chunk chunk).toFinset = {chunk} := by
        ext other
        simp [le_antisymm_iff, and_comm]
      rw [tasksIn_eq_sum, only, Finset.sum_singleton]
    have next : min (saturatingAdd held (state.tasksOfChunk chunk)) slots
        = min (total + state.tasksOfChunk chunk) slots := by
      unfold saturatingAdd
      omega
    simp only [fitChunks, single, next]
    split
    · rename_i more
      refine ⟨0, kept, some _, ?_, by simp, ?_, .inr ⟨by simp, ?_, rfl⟩⟩
      · simp [cost, spent]
      · simpa [cost, spent] using fits
      · simpa [cost] using more
    · rename_i enough
      obtain ⟨count, kept', heldBack, fitted, members, within, ends⟩ :=
        ih _ (kept.insert chunk) next rfl (Nat.le_of_not_gt enough)
      refine ⟨count + 1, kept', heldBack, ?_, fun other => ?_, ?_, ?_⟩
      · simpa [cost, Nat.add_assoc] using fitted
      · simp [members, or_assoc]
      · simpa [cost, Nat.add_assoc] using within
      · simpa [cost, Nat.add_assoc] using ends

theorem slotsOf_lt (nodes : List NodeSlots) (node : NodeId) : slotsOf nodes node < u64Size := by
  unfold slotsOf
  cases nodes.find? (·.node == node) with
  | none => decide
  | some candidate => exact candidate.slots.isLt.trans (by decide)

/-- Attempts that a grant lets start, beyond what its node can run already. -/
def grantCost (state : TaskArrayState) (slots : NodeId → Nat) (grant : NodeId × IndexRangeSet)
    : Nat :=
  min (state.heldTasks grant.1 + state.tasksIn grant.2) (slots grant.1)
    - state.inFlightOn grant.1 (slots grant.1)

/-- Of a planned grant the lowest chunks are kept, up to the first that does not fit. -/
theorem fitChunks_planned (state : TaskArrayState) (nodes : List NodeSlots) (node : NodeId)
    (chunks : IndexRangeSet) (room : Nat)
    : let slots := slotsOf nodes node
      let cost (count : Nat) := grantCost state (slotsOf nodes) (node, (chunks.takeFirst count).1)
      ∃ count heldBack,
        fitChunks state slots (state.inFlightOn node slots) room chunks.iter (state.heldTasks node)
            ∅ 0
          = ((chunks.takeFirst count).1, cost count, heldBack)
        ∧ cost count ≤ room
        ∧ ((chunks.takeFirst count).1 = chunks ∧ heldBack = none
          ∨ count < chunks.len
            ∧ room < cost (count + 1)
            ∧ heldBack = some (cost (count + 1) - cost count)) := by
  intro slots cost
  have costs (count : Nat) : min (state.heldTasks node
      + ((chunks.iter.take count).map state.tasksOfChunk).sum) slots - state.inFlightOn node slots
      = cost count := by
    simp only [cost, grantCost, tasksIn_eq_sum, toFinset,
      List.sum_toFinset _ (nodup_iter _), (chunks.iter_takeFirst count).1, slots]
  obtain ⟨count, kept, heldBack, fitted, members, within, ends⟩ := @fitChunks_spec state slots
    (state.inFlightOn node slots) room (slotsOf_lt nodes node) chunks.iter
    (state.heldTasks node) ∅ _ 0 rfl (by simp [inFlightOn, slots]) (Nat.zero_le _)
  simp only [costs, length_iter] at fitted within ends
  obtain rfl : kept = (chunks.takeFirst count).1 := ext_mem fun chunk => by
    rw [members, ← (chunks.iter_takeFirst count).1]
    simp
  refine ⟨count, heldBack, fitted, within, ends.imp_left ?_⟩
  rintro ⟨all, none⟩
  refine ⟨ext_mem fun chunk => ?_, none⟩
  rw [← mem_iter, (chunks.iter_takeFirst count).1, List.take_of_length_le (by simpa), mem_iter]

/-- Attempts that the grants of a plan let start in all. -/
def planCost (state : TaskArrayState) (slots : NodeId → Nat)
    (plan : List (NodeId × IndexRangeSet))
    : Nat :=
  (plan.map (grantCost state slots)).sum

/-- Grants are the first of the plan, each in full but for the last, which may be cut to its lowest
chunks; what they start fits, and would not with the next chunk. -/
inductive FitsPlan (state : TaskArrayState) (slots : NodeId → Nat) (room : Nat)
    (fitted : FittedGrants)
    : List (NodeId × IndexRangeSet) → Prop where
  | whole {plan : List (NodeId × IndexRangeSet)} (grants : fitted.grants = granting plan)
      (started : fitted.started = planCost state slots plan) (none : fitted.heldBack = none)
      : FitsPlan state slots room fitted plan
  | cut (whole later : List (NodeId × IndexRangeSet)) {node : NodeId} {chunks : IndexRangeSet}
      {count more : Nat} (short : count < chunks.len)
      (grants : fitted.grants = granting (whole ++ [(node, (chunks.takeFirst count).1)]))
      (started : fitted.started
        = planCost state slots (whole ++ [(node, (chunks.takeFirst count).1)]))
      (held : fitted.heldBack = some more)
      (next : planCost state slots (whole ++ [(node, (chunks.takeFirst (count + 1)).1)])
        = fitted.started + more)
      (beyond : room < fitted.started + more)
      : FitsPlan state slots room fitted (whole ++ (node, chunks) :: later)

/-- By induction on the plan. -/
theorem fitGrants_fits (state : TaskArrayState) (nodes : List NodeSlots)
    (plan : List (NodeId × IndexRangeSet)) (room : Nat)
    : (fitGrants state nodes plan room).started ≤ room
      ∧ FitsPlan state (slotsOf nodes) room (fitGrants state nodes plan room) plan := by
  induction plan generalizing room with
  | nil => exact ⟨Nat.zero_le _, .whole rfl rfl rfl⟩
  | cons entry rest ih =>
    obtain ⟨node, chunks⟩ := entry
    obtain ⟨count, _, fits, within, ends⟩ := fitChunks_planned state nodes node chunks room
    simp only [fitGrants, fits]
    rcases ends with ⟨all, rfl⟩ | ⟨short, more, rfl⟩
    · simp only [all, Option.isSome_none, Bool.false_eq_true, if_false] at within ⊢
      obtain ⟨_, fits⟩ := ih (room - grantCost state (slotsOf nodes) (node, chunks))
      refine ⟨by omega, ?_⟩
      cases fits with
      | whole grants started none =>
        exact .whole (by simp [grants, granting_cons]) (by simp [planCost, started]) none
      | @cut whole later last part count more short grants started held next beyond =>
        refine .cut ((node, chunks) :: whole) later short ?_ ?_ held ?_ (by simp only; omega)
        · simp [grants, granting_cons]
        · simp [planCost, started]
        · simp only [planCost, List.cons_append, List.map_cons, List.sum_cons] at next ⊢
          omega
    · simp only [Option.isSome_some, if_true] at within more ⊢
      refine ⟨within, .cut [] rest short ?_ ?_ rfl ?_ (by simp only; omega)⟩
      · simp [granting_cons]
      · simp [planCost]
      · simp only [planCost, List.nil_append, List.map_singleton, List.sum_singleton]
        omega

section

variable {slots : NodeId → Nat} {room : Nat} {fitted : FittedGrants}
  (fits : FitsPlan state slots room fitted plan)
include fits

/-- What is granted of a plan are its first chunks. -/
theorem FitsPlan.drawn
    : planned fitted.grants <+: planned plan := by
  cases fits with
  | whole grants => exact grants ▸ planned_granting plan ▸ List.prefix_rfl
  | @cut whole later node chunks count _ _ grants =>
    rw [grants, planned_granting]
    simp only [planned, List.flatMap_append, List.flatMap_cons, List.flatMap_nil, List.append_nil,
      (chunks.iter_takeFirst count).1]
    exact (List.prefix_append_right_inj _).mpr
      ((List.take_prefix _ _).trans (List.prefix_append _ _))

theorem FitsPlan.nodes_sublist
    : (fitted.grants.map Prod.fst).Sublist (plan.map Prod.fst) := by
  cases fits with
  | whole grants => exact grants ▸ List.filter_sublist.map _
  | cut whole later _ grants =>
    rw [grants]
    refine (List.filter_sublist.map _).trans ?_
    simp

end

/-- Grants that draw each chunk once from the queue of a running array are all accepted; by
induction on the grants. -/
theorem granted_in_turn (running : state.stopped = none)
    (owners : ∀ entry ∈ grants, validNodeId entry.1 = true) (once : (planned grants).Nodup)
    (queued : ∀ chunk ∈ planned grants, chunk ∈ state.queued)
    : ∃ final, state.AllAccepted (grants.map (fun entry => .grant entry.1 entry.2)) final := by
  induction grants generalizing state with
  | nil => exact ⟨state, rfl⟩
  | cons entry rest ih =>
    obtain ⟨node, chunks⟩ := entry
    obtain ⟨_, later, apart⟩ := List.nodup_append.mp once
    obtain ⟨_, granted, still, left⟩ := grant_of_queued
      (owners (node, chunks) List.mem_cons_self) running
      (fun chunk held => queued chunk (mem_planned List.mem_cons_self held))
    obtain ⟨final, accepted⟩ := ih still (List.forall_mem_cons.mp owners).2 later
      fun chunk inRest => left chunk (queued chunk (List.mem_append_right _ inRest)) fun held =>
        apart chunk (mem_iter.mpr held) chunk inRest rfl
    refine ⟨final, allAccepted_cons.mpr ⟨?_, ?_⟩⟩
    · simp [accepts, granted, Except.isOk, Except.toBool]
    · simpa only [step, granted] using accepted

-- The nodes of a plan

theorem mem_foldl_addCandidate {order : List NodeSlots} {candidate : NodeSlots}
    (member : candidate ∈ nodes.foldl addCandidate order)
    : candidate ∈ order ∨ candidate ∈ nodes := by
  induction nodes generalizing order with
  | nil => exact .inl member
  | cons head rest ih =>
    rcases ih member with before | later
    · unfold addCandidate at before
      split at before
      · rcases List.mem_append.mp before with old | new
        · exact .inl old
        · exact .inr (List.mem_singleton.mp new ▸ List.mem_cons_self)
      · exact .inl before
    · exact .inr (List.mem_cons_of_mem _ later)

theorem mem_grantOrder {candidate : NodeSlots} (member : candidate ∈ grantOrder state nodes)
    : candidate ∈ nodes := by
  unfold grantOrder at member
  rw [List.mem_insertionSort] at member
  rcases mem_foldl_addCandidate member with impossible | listed
  · cases impossible
  · exact listed

theorem planEach_nodes {order : List (NodeSlots × Nat)}
    : ((planEach state lookahead queue order).map Prod.fst).Sublist
        (order.map (fun entry => entry.1.node)) := by
  induction order generalizing queue with
  | nil => exact .slnil
  | cons entry rest ih =>
    cases some : queue.isEmpty with
    | true => simp [planEach, some]
    | false =>
      rw [planEach_cons some, List.map_append]
      exact (List.filter_sublist.map Prod.fst).append ih

/-- Every node has a share. -/
theorem length_capacityShares (outstanding : Nat) (slots : List Nat)
    : (capacityShares outstanding slots).length = slots.length := by
  unfold capacityShares
  simp only
  split <;> simp

theorem planGrants_nodes {lookahead : Bool}
    : ((planGrants state nodes lookahead).map Prod.fst).Sublist
        ((grantOrder state nodes).map (·.node)) := by
  unfold planGrants
  split
  · exact List.nil_sublist _
  refine planEach_nodes.trans ?_
  rw [show (fun entry : NodeSlots × Nat => entry.1.node) = (·.node) ∘ Prod.fst from rfl,
    ← List.map_map]
  rw [List.map_fst_zip (by simp [length_capacityShares])]

theorem nodup_foldl_addCandidate {order : List NodeSlots} (nodup : (order.map (·.node)).Nodup)
    : ((nodes.foldl addCandidate order).map (·.node)).Nodup := by
  induction nodes generalizing order with
  | nil => exact nodup
  | cons candidate rest ih =>
    refine ih ?_
    unfold addCandidate
    split
    · rename_i new
      simp only [Bool.and_eq_true, Bool.not_eq_true', List.any_eq_false, beq_iff_eq] at new
      rw [List.map_append, List.map_singleton]
      refine List.nodup_append.mpr ⟨nodup, List.nodup_singleton _, ?_⟩
      intro node member other same
      obtain ⟨known, listed, rfl⟩ := List.mem_map.mp member
      rw [List.mem_singleton.mp same]
      exact new.2 known listed
    · exact nodup

/-- Every node is granted at most one set of chunks. -/
theorem nodup_planGrants (state : TaskArrayState) (nodes : List NodeSlots) (lookahead : Bool)
    : ((planGrants state nodes lookahead).map Prod.fst).Nodup := by
  refine planGrants_nodes.nodup ?_
  unfold grantOrder
  refine (((List.perm_insertionSort _ _).map NodeSlots.node).nodup_iff).mpr ?_
  exact nodup_foldl_addCandidate List.nodup_nil

-- The whole sync

/-- The grants of a sync go to nodes that answered. -/
theorem fittedGrants_nodes {answers : List (NodeId × ArrayProgress)} {replayUnknown : Bool}
    {room : Nat} {entry : NodeId × IndexRangeSet}
    (granted : entry ∈ (fittedGrants state answers replayUnknown room).grants)
    : ∃ answer ∈ answers, answer.1 = entry.1 := by
  have listed := planGrants_nodes.subset ((fitGrants_fits _ _ _ _).2.nodes_sublist.subset
    (List.mem_map_of_mem (f := Prod.fst) granted))
  obtain ⟨_, member, isNode⟩ := List.mem_map.mp listed
  obtain ⟨answer, answered, rfl⟩ := List.mem_map.mp (mem_grantOrder member)
  exact ⟨answer, answered, isNode⟩

/-- Every grant of a sync is accepted once the preview's reports are applied. -/
theorem fittedGrants_accepted (state : TaskArrayState)
    {answers : List (NodeId × ArrayProgress)}
    (valid : ∀ answer ∈ answers, validNodeId answer.1 = true) (replayUnknown : Bool) (room : Nat)
    : ∃ final,
        (state.preview answers).1.AllAccepted
          ((fittedGrants state answers replayUnknown room).grants.map
            (fun entry => .grant entry.1 entry.2)) final := by
  cases stopped : (state.preview answers).1.stopped with
  | some reason =>
    refine ⟨(state.preview answers).1, ?_⟩
    have none : (fittedGrants state answers replayUnknown room).grants = [] := by
      simp [fittedGrants, planGrants, stopped, fitGrants]
    rw [none]
    rfl
  | none =>
    have drawn : planned (fittedGrants state answers replayUnknown room).grants
        <+: (state.preview answers).1.queued.iter :=
      (fitGrants_fits _ _ _ _).2.drawn.trans (planGrants_drawn _ _ _)
    refine granted_in_turn stopped ?_ (drawn.sublist.nodup (nodup_iter _))
      fun chunk listed => mem_iter.mp (drawn.subset listed)
    intro entry granted
    obtain ⟨answer, answered, same⟩ := fittedGrants_nodes granted
    exact same ▸ valid answer answered

/-- The sync that the planner returns applies to the same record without a refusal, and leaves
the state that its preview and its fitted grants lead to. -/
theorem planned_sync_applies_in_full {machine : Machine} {batchId : Nat}
    {record : TaskArrayRecord} (found : machine.store.arrays[batchId]? = some record)
    {answers : List (NodeId × ArrayProgress)}
    (valid : ∀ answer ∈ answers, validNodeId answer.1 = true) {replayUnknown : Bool} {room : Nat}
    {write : TaskArrayWrite}
    (planned : (planSyncWithin batchId record answers replayUnknown room).1 = some write)
    : (machine.apply P ids write).1
        = .ok (.synced (record.state.preview answers).2.length 0
          (fittedGrants record.state answers replayUnknown room).grants.length 0)
      ∧ ∃ later,
          (machine.apply P ids write).2.store.arrays[batchId]? = some later
          ∧ later.state
            = (record.state.preview answers).1.run
              ((fittedGrants record.state answers replayUnknown room).grants.map
                (fun entry => .grant entry.1 entry.2)) := by
  obtain ⟨final, granted⟩ := fittedGrants_accepted record.state valid replayUnknown room
  have reported := record.state.preview_accepted answers
  unfold planSyncWithin at planned
  simp only at planned
  split at planned
  · cases planned
  cases planned
  have synced : machine.store.sync batchId (record.state.preview answers).2
      (fittedGrants record.state answers replayUnknown room).grants 0
      = .ok (.synced (record.state.preview answers).2.length 0
          (fittedGrants record.state answers replayUnknown room).grants.length 0,
        machine.store.settle batchId { record with state := final } 0) := by
    unfold TaskArrayState.AllAccepted at reported granted
    simp only [sync, found, syncOps, reported, granted, List.length_map]
  have applied : machine.apply P ids (.progress (.sync batchId (record.state.preview answers).2
      (fittedGrants record.state answers replayUnknown room).grants 0))
      = machine.publish (machine.store.sync batchId (record.state.preview answers).2
        (fittedGrants record.state answers replayUnknown room).grants 0) := rfl
  rw [applied, synced]
  refine ⟨rfl, withReceipt { record with state := final } 0, ?_, ?_⟩
  · show (machine.store.settle batchId _ 0).arrays[batchId]? = _
    rw [settle_arrays, if_pos rfl]
  · rw [withReceipt_state, granted.run_eq]

-- One sync

def handedOutWrites : List TaskArrayWrite :=
  [.register "web" "default" Machine.sampleTemplate
      { TaskArraySpec.withCount 3 with chunkSize := 1 } 0,
    .progress (.sync 1 [] [("node-a", .fromRange 0 0)] 1)]

/-- The first node reports its chunk, and two nodes have slots. -/
def twoAnswers : List (NodeId × ArrayProgress) :=
  [("node-a", {
      batchId := 1
      slots := ⟨2, by decide⟩
      finished := [TaskArrayState.successReport 0 1 1] }),
    ("node-b", { batchId := 1, slots := ⟨1, by decide⟩, finished := [] })]

/-- The sync passes the report on and tops one node up with both queued chunks; nothing of it is
refused. -/
theorem twoAnswers_apply_in_full
    : ∃ record write,
        (Machine.run Machine.samplePlatform (· + 1) {} handedOutWrites).store.arrays[1]?
          = some record
        ∧ (planSyncWithin 1 record twoAnswers true 2).1 = some write
        ∧ ((Machine.run Machine.samplePlatform (· + 1) {} handedOutWrites).apply
            Machine.samplePlatform (· + 1) write).1 = .ok (.synced 1 0 1 0) := by
  have planned : ((Machine.run Machine.samplePlatform (· + 1) {} handedOutWrites
      ).store.arrays[1]?.map (fun record =>
        ((planSyncWithin 1 record twoAnswers true 2).1.isSome,
          (record.state.preview twoAnswers).2.length,
          (fittedGrants record.state twoAnswers true 2).grants.length)))
      = some (true, 1, 1) := by
    decide +kernel
  obtain ⟨record, found, facts⟩ := Option.map_eq_some_iff.mp planned
  simp only [Prod.mk.injEq] at facts
  obtain ⟨isSome, reports, grants⟩ := facts
  obtain ⟨write, isWrite⟩ := Option.isSome_iff_exists.mp isSome
  refine ⟨record, write, found, isWrite, ?_⟩
  rw [(planned_sync_applies_in_full found (by decide +kernel) isWrite).1, reports, grants]

end Reliaburger
