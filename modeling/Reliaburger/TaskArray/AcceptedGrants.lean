import Reliaburger.TaskArray.GrantFencing
import Reliaburger.TaskArray.WellFormed

/-! The record of accepted reports names, for each chunk that a report retired, the grant of that
report, however often the record was folded.
-/

namespace Reliaburger

namespace TaskArrayState

variable {state initial : TaskArrayState} {ops : List ArrayOp} {grant : AcceptedGrant}
  {node : NodeId} {attempt chunk time : Nat}

-- Lookups

private theorem mem_of_acceptedAttempt {generations : BTreeMap Nat IndexRangeSet}
    (found : acceptedAttempt chunk generations = some attempt)
    : chunk ∈ generations[attempt]?.getD ∅ := by
  obtain ⟨_, first, rfl⟩ := Option.map_eq_some_iff.mp found
  rw [BTreeMap.mem_toList.mp (List.mem_of_find?_eq_some first)]
  simpa using List.find?_some first

private theorem not_mem_of_acceptedAttempt {generations : BTreeMap Nat IndexRangeSet}
    (absent : acceptedAttempt chunk generations = none) (attempt : Nat)
    : chunk ∉ generations[attempt]?.getD ∅ := by
  cases stored : generations[attempt]? with
  | none => simp
  | some set =>
    have none := List.find?_eq_none.mp (Option.map_eq_none_iff.mp absent) _
      (BTreeMap.mem_toList.mpr stored)
    simpa using none

private theorem credits_of_acceptedGrant (found : state.acceptedGrant chunk = some grant)
    : state.Credits grant chunk := by
  unfold acceptedGrant at found
  split at found
  · rename_i first
    cases found
    obtain ⟨_, listed, here⟩ := List.exists_of_findSome?_eq_some first
    obtain ⟨_, found, rfl⟩ := Option.map_eq_some_iff.mp here
    have generations := BTreeMap.mem_toList.mp listed
    simpa [Credits, recordOf, generations] using mem_of_acceptedAttempt found
  · obtain ⟨_, here, rfl⟩ := Option.map_eq_some_iff.mp found
    exact mem_of_acceptedAttempt here

private theorem not_credits_of_acceptedGrant (absent : state.acceptedGrant chunk = none)
    : ¬ state.Credits grant chunk := by
  unfold acceptedGrant at absent
  split at absent
  · cases absent
  next nowhere =>
    obtain ⟨_ | owner, attempt⟩ := grant
    · exact not_mem_of_acceptedAttempt (Option.map_eq_none_iff.mp absent) attempt
    cases found : state.accepted[owner]? with
    | none => simp [Credits, recordOf, found]
    | some generations =>
      have here := List.findSome?_eq_none_iff.mp nowhere _ (BTreeMap.mem_toList.mpr found)
      simpa [Credits, recordOf, found] using
        not_mem_of_acceptedAttempt (Option.map_eq_none_iff.mp here) attempt

/-- The first grant found for a chunk is the only one that the record names for it. -/
theorem acceptedGrant_eq_some (kept : state.RecordKept)
    : state.acceptedGrant chunk = some grant ↔ state.Credits grant chunk := by
  refine ⟨credits_of_acceptedGrant, fun credited => ?_⟩
  cases found : state.acceptedGrant chunk with
  | none => exact absurd credited (not_credits_of_acceptedGrant found)
  | some other => rw [kept.once _ _ chunk credited (credits_of_acceptedGrant found)]

-- Runs

/-- The record names the node's grant for the chunk, with or without the node. -/
def CreditedTo (state : TaskArrayState) (node : NodeId) (attempt chunk : Nat) : Prop :=
  ∃ owner, (owner = some node ∨ owner = none) ∧ state.Credits ⟨owner, attempt⟩ chunk

theorem credits_of_books {next : TaskArrayState} (same : next.books = state.books)
    : next.Credits = state.Credits := by
  simp only [books, Prod.mk.injEq] at same
  funext grant chunk
  obtain ⟨owner, attempt⟩ := grant
  cases owner <;> simp [Credits, recordOf, same]

/-- An accepted report adds its own grant to the record. -/
theorem creditedTo_tally {result : ChunkResult} {holder : NodeId}
    (credited : state.CreditedTo holder attempt chunk
      ∨ holder = node ∧ attempt = result.attempt ∧ chunk = result.chunk)
    : (state.tally node result).CreditedTo holder attempt chunk := by
  have recorded : (state.recordAccepted node result.attempt result.chunk).CreditedTo holder attempt
      chunk := by
    rcases credited with ⟨owner, named, before⟩ | ⟨rfl, rfl, rfl⟩
    · exact ⟨owner, named, credits_recordAccepted.mpr (.inl before)⟩
    · exact ⟨some holder, .inl rfl, credits_recordAccepted.mpr (.inr ⟨rfl, rfl⟩)⟩
  obtain ⟨owner, named, before⟩ := recorded
  by_cases full : acceptedRanges (state.recordAccepted node result.attempt result.chunk).accepted
      > maxAcceptedRanges
  · refine ⟨none, .inr rfl, credits_foldAcceptedWhenFull.mpr ?_⟩
    exact (if_pos full).mpr ⟨rfl, owner, before⟩
  · exact ⟨owner, named, credits_foldAcceptedWhenFull.mpr ((if_neg full).mpr before)⟩

theorem credits_of_tally {result : ChunkResult}
    (credited : (state.tally node result).Credits grant chunk)
    : (∃ old, state.Credits old chunk) ∨ chunk = result.chunk := by
  have recorded : ∃ old, (state.recordAccepted node result.attempt result.chunk).Credits old
      chunk := by
    have folded := credits_foldAcceptedWhenFull.mp credited
    split at folded
    · obtain ⟨_, _, before⟩ := folded
      exact ⟨_, before⟩
    · exact ⟨grant, folded⟩
  obtain ⟨old, before⟩ := recorded
  rcases credits_recordAccepted.mp before with earlier | ⟨_, now⟩
  · exact .inl ⟨old, earlier⟩
  · exact .inr now

/-- The record keeps up with the counted reports, by induction on time. -/
theorem credited_iff_applied {spec : TaskArraySpec} {submitted : Nat}
    (created : new spec submitted = .ok initial) (time : Nat)
    : (∀ grant chunk, (initial.stateAt ops time).Credits grant chunk
        → ∃ earlier node attempt, initial.AppliedAt ops earlier node chunk attempt)
      ∧ ∀ earlier < time, ∀ node chunk attempt, initial.AppliedAt ops earlier node chunk attempt
        → (initial.stateAt ops time).CreditedTo node attempt chunk := by
  induction time with
  | zero =>
    refine ⟨fun grant chunk credited => ?_, nofun⟩
    unfold new at created
    split at created
    · cases created
    · cases created
      obtain ⟨_ | _, attempt⟩ := grant <;> simp [stateAt, run, Credits, recordOf] at credited
  | succ time ih =>
    obtain ⟨before, after⟩ := ih
    by_cases counted : ∃ node chunk attempt, initial.AppliedAt ops time node chunk attempt
    · obtain ⟨node, chunk, attempt, result, next, called, completed, rfl, rfl⟩ := counted
      have same : (initial.stateAt ops (time + 1)).Credits
          = ((initial.stateAt ops time).tally node result).Credits := by
        rw [stateAt_succ, called]
        rcases books_step (initial.stateAt ops time) (.complete node result) with
          ⟨quiet, _⟩ | ⟨_, _, _, _, isCall, _, _, books⟩
        · simp [appliedResult, completed] at quiet
        · cases isCall
          exact credits_of_books books
      refine ⟨fun grant chunk credited => ?_, fun earlier order holder chunk attempt applied => ?_⟩
      · rcases credits_of_tally (same ▸ credited) with ⟨old, credited⟩ | rfl
        · exact before old chunk credited
        · exact ⟨time, node, _, result, next, called, completed, rfl, rfl⟩
      simp only [CreditedTo, same]
      refine creditedTo_tally ?_
      rcases Nat.lt_succ_iff_lt_or_eq.mp order with order | rfl
      · exact .inl (after earlier order holder chunk attempt applied)
      obtain ⟨_, _, isCall, _, rfl, rfl⟩ := applied
      rw [called] at isCall
      cases isCall
      exact .inr ⟨rfl, rfl, rfl⟩
    · have same
          : (initial.stateAt ops (time + 1)).Credits = (initial.stateAt ops time).Credits := by
        rw [stateAt_succ]
        cases called : ops[time]? with
        | none => rfl
        | some op =>
          rcases books_step (initial.stateAt ops time) op with
            ⟨_, books⟩ | ⟨node, result, next, _, rfl, completed, _⟩
          · exact credits_of_books books
          · exact absurd ⟨node, _, _, result, next, called, completed, rfl, rfl⟩ counted
      simp only [CreditedTo, same]
      refine ⟨before, fun earlier order node chunk attempt applied => ?_⟩
      rcases Nat.lt_succ_iff_lt_or_eq.mp order with order | rfl
      · exact after earlier order node chunk attempt applied
      · exact absurd ⟨node, chunk, attempt, applied⟩ counted

theorem acceptedRanges_le (reachable : state.Reachable)
    : acceptedRanges state.accepted ≤ maxAcceptedRanges := by
  refine reachable.induction (P := fun state => acceptedRanges state.accepted ≤ _) ?_ ?_
  · intro spec submitted state created
    unfold new at created
    split at created
    · cases created
    · cases created
      simp [acceptedRanges]
  · intro state next bounded move
    cases move with
    | handOut | writeOff | returnToQueue => exact bounded
    | tally accepts =>
      change acceptedRanges (if _ then ∅ else _) ≤ _
      split
      · simp [acceptedRanges]
      · next room => exact Nat.le_of_not_lt room
    | stop reason running => simpa [stop, running] using bounded

/-- After any calls on a new array, the accepted grant of a chunk is the one grant that the record
names for it; there is one exactly if a report of the chunk was counted, at the attempt of that
report and with no other owner than its node; and the record by node is bounded.
-/
theorem accepted_grant_is_of_counted_report {spec : TaskArraySpec} {submitted : Nat}
    (created : new spec submitted = .ok initial) (ops : List ArrayOp) (chunk : Nat)
    : (((initial.run ops).acceptedGrant chunk).isSome
        ↔ ∃ time node attempt, initial.AppliedAt ops time node chunk attempt)
      ∧ (∀ grant time node attempt,
          (initial.run ops).acceptedGrant chunk = some grant
          → initial.AppliedAt ops time node chunk attempt
          → grant.attempt = attempt ∧ (grant.owner = some node ∨ grant.owner = none))
      ∧ (∀ grant, (initial.run ops).acceptedGrant chunk = some grant
          ↔ (initial.run ops).Credits grant chunk)
      ∧ acceptedRanges (initial.run ops).accepted ≤ maxAcceptedRanges := by
  have reachable := reachable_run created ops
  have kept := reachable.wellFormed.accepted
  have last : initial.stateAt ops ops.length = initial.run ops := by rw [stateAt, List.take_length]
  obtain ⟨reported, credited⟩ := last ▸ @credited_iff_applied initial ops _ _ created ops.length
  have found (time node attempt) (applied : initial.AppliedAt ops time node chunk attempt)
      : ∃ owner, (owner = some node ∨ owner = none)
          ∧ (initial.run ops).acceptedGrant chunk = some ⟨owner, attempt⟩ := by
    obtain ⟨_, _, called, _⟩ := id applied
    obtain ⟨owner, named, credits⟩ :=
      credited time (List.getElem?_eq_some_iff.mp called).1 node chunk attempt applied
    exact ⟨owner, named, (acceptedGrant_eq_some kept).mpr credits⟩
  refine ⟨⟨fun isSome => ?_, ?_⟩, ?_, fun grant => acceptedGrant_eq_some kept,
    acceptedRanges_le reachable⟩
  · obtain ⟨grant, isGrant⟩ := Option.isSome_iff_exists.mp isSome
    exact reported grant chunk ((acceptedGrant_eq_some kept).mp isGrant)
  · rintro ⟨time, node, attempt, applied⟩
    obtain ⟨_, _, isGrant⟩ := found time node attempt applied
    exact isGrant ▸ rfl
  · intro grant time node attempt isGrant applied
    obtain ⟨_, named, own⟩ := found time node attempt applied
    rw [isGrant] at own
    cases own
    exact ⟨rfl, named⟩

/-- The late report of the first grant leaves the second node's in the record. -/
theorem lateReport_credits_second
    : ∃ initial,
        new (.withCount 1) 0 = .ok initial
        ∧ initial.AppliedAt lateReport 4 "node-b" 0 2
        ∧ ((initial.run lateReport).acceptedGrant 0).isSome := by
  have created : new (.withCount 1) 0 = .ok _ := rfl
  refine ⟨_, created, ⟨successReport 0 2 1, _, rfl, rfl, rfl, rfl⟩, ?_⟩
  refine (accepted_grant_is_of_counted_report created lateReport 0).1.mpr ⟨4, "node-b", 2, ?_⟩
  exact ⟨successReport 0 2 1, _, rfl, rfl, rfl, rfl⟩

end TaskArrayState

end Reliaburger
