import Reliaburger.TaskArray.IndexRangeSet

/-! The range sets as finite sets of 32-bit indices: whatever calls a set is built by, it answers
as the mathematical set that the same calls build, no index computed on the way leaves 32 bits,
and exactly the lists of ranges that a set can have are read back.
-/

namespace Reliaburger

open RangeList

-- Reading a list of ranges

inductive IndexSetError where
  | reversed (position first last : Nat)
  | unordered (position : Nat)
deriving DecidableEq, Repr

/-- Read the pairs one after another behind the ranges that were read so far. -/
def tryFromEach (ranges : List (Nat × Nat))
    : List (Nat × Nat) → Except IndexSetError (List (Nat × Nat))
  | [] => .ok ranges
  | (first, last) :: rest =>
    if first > last then .error (.reversed ranges.length first last)
    else if ranges.getLast?.any (fun previous => first ≤ previous.2 + 1) then
      .error (.unordered ranges.length)
    else tryFromEach (ranges ++ [(first, last)]) rest

def tryFrom (pairs : List (Nat × Nat)) : Except IndexSetError (List (Nat × Nat)) :=
  tryFromEach [] pairs

/-- The pairs are accepted exactly when all ranges together are canonical, by induction on the
pairs. -/
theorem tryFromEach_eq_ok {read pairs ranges : List (Nat × Nat)}
    (canonical : RangeList.Canonical read)
    : tryFromEach read pairs = .ok ranges
      ↔ ranges = read ++ pairs ∧ RangeList.Canonical (read ++ pairs) := by
  induction pairs generalizing read with
  | nil => simp [tryFromEach, canonical, eq_comm]
  | cons pair rest ih =>
    obtain ⟨first, last⟩ := pair
    have whole : read ++ (first, last) :: rest = (read ++ [(first, last)]) ++ rest := by simp
    unfold tryFromEach
    split
    · next backward =>
      simp only [reduceCtorEq, false_iff, not_and]
      exact fun _ all => absurd (all.ordered (first, last) (by simp)) (Nat.not_le.mpr backward)
    split
    · next touching =>
      obtain ⟨previous, isLast, close⟩ := (Option.any_eq_true _ _).mp touching
      simp only [reduceCtorEq, false_iff, not_and]
      intro _ all
      have apart := (List.pairwise_append.mp all.separated).2.2 previous
        (List.mem_of_getLast? isLast) (first, last) List.mem_cons_self
      simp only [decide_eq_true_eq] at close apart
      omega
    · next forward apart =>
      rw [whole]
      refine ih
        ⟨?_, List.pairwise_append.mpr ⟨canonical.separated, List.pairwise_singleton _ _, ?_⟩⟩
      · rw [List.forall_mem_append]
        exact ⟨canonical.ordered, by simpa using forward⟩
      -- The last range read ends furthest, so the others are apart as well.
      intro range listed other isNew
      rw [List.mem_singleton.mp isNew]
      obtain ⟨_, previous, rfl⟩ := (List.eq_nil_or_concat read).resolve_left
        (List.ne_nil_of_mem listed)
      simp only [List.concat_eq_append, List.getLast?_append, List.getLast?_singleton,
        Option.some_or, Option.any_some, decide_eq_true_eq, not_le] at apart listed canonical
      rcases List.mem_append.mp listed with before | isLast
      · have := (List.pairwise_append.mp canonical.separated).2.2 range before previous (by simp)
        have := canonical.ordered previous (by simp)
        simp only
        omega
      · rw [List.mem_singleton.mp isLast]
        exact apart

-- Arithmetic on 32 bits

/-- Addition of 32-bit numbers, nothing when it overflows. -/
def add32 (left right : Nat) : Option Nat :=
  if left + right < 2 ^ 32 then some (left + right) else none

def sub32 (left right : Nat) : Option Nat :=
  if right ≤ left then some (left - right) else none

/-- What removal keeps of the first range it cuts. -/
def keptBefore (head first : Nat) : Option (List (Nat × Nat)) :=
  if head < first then (sub32 first 1).map fun cut => [(head, cut)] else some []

def keptAfter (last tail : Nat) : Option (List (Nat × Nat)) :=
  if tail > last then (add32 last 1).map fun next => [(next, tail)] else some []

/-- Removal as it is computed on 32 bits. -/
def removeRange32 (ranges : List (Nat × Nat)) (first last : Nat) : Option (List (Nat × Nat)) :=
  if first > last then some ranges
  else
    let start := RangeList.partitionPoint (fun range => decide (range.2 < first)) ranges
    let stop := RangeList.partitionPoint (fun range => decide (range.1 ≤ last)) ranges
    if start ≥ stop then some ranges
    else do
      let left ← keptBefore (ranges.getD start (first, last)).1 first
      let right ← keptAfter last (ranges.getD (stop - 1) (first, last)).2
      some (ranges.take start ++ (left ++ right) ++ ranges.drop stop)

/-- The split as it is computed on 32 bits, where the rest of the count is cut to them. -/
def takeFirst32 : Nat → List (Nat × Nat) → Option (List (Nat × Nat) × List (Nat × Nat))
  | _, [] => some ([], [])
  | count, (first, last) :: rest =>
    let width := last - first + 1
    if width ≤ count then
      (takeFirst32 (count - width) rest).map fun split => ((first, last) :: split.1, split.2)
    else if count > 0 then do
      let reached ← add32 first (count % 2 ^ 32)
      let cut ← sub32 reached 1
      let next ← add32 cut 1
      some ([(first, cut)], (next, last) :: rest)
    else some ([], (first, last) :: rest)

section

variable {ranges : List (Nat × Nat)} (small : ∀ range ∈ ranges, range.2 < 2 ^ 32)

include small

theorem removeRange32_eq (first last : Nat)
    : removeRange32 ranges first last = some (RangeList.removeRange ranges first last) := by
  unfold removeRange32 removeRange
  split
  · rfl
  simp only
  split
  · rfl
  next ordered cuts =>
    have inside : partitionPoint (fun range => decide (range.1 ≤ last)) ranges - 1
        < ranges.length := by
      have := partitionPoint_le (fun range => decide (range.1 ≤ last)) ranges
      omega
    have ends := small _ (getD_mem inside (first, last))
    have left (head : Nat)
        : keptBefore head first = some (if head < first then [(head, first - 1)] else []) := by
      unfold keptBefore
      split
      · rw [sub32, if_pos (by omega)]
        rfl
      · rfl
    have right {tail : Nat} (fits : tail < 2 ^ 32)
        : keptAfter last tail = some (if tail > last then [(last + 1, tail)] else []) := by
      unfold keptAfter
      split
      · rw [add32, if_pos (by omega)]
        rfl
      · rfl
    rw [left, right ends]
    rfl

theorem takeFirst32_eq (canonical : RangeList.Canonical ranges) (count : Nat)
    : takeFirst32 count ranges = some (RangeList.takeFirst count ranges) := by
  induction ranges generalizing count with
  | nil => rfl
  | cons head rest ih =>
    obtain ⟨first, _⟩ := head
    obtain ⟨ends, later⟩ := List.forall_mem_cons.mp small
    obtain ⟨tail, ordered, _⟩ := canonical_cons.mp canonical
    simp only at ends ordered
    unfold takeFirst32 takeFirst
    simp only
    split
    · rw [ih later tail]
      rfl
    split
    · next narrow positive =>
      have cut : count % 2 ^ 32 = count := Nat.mod_eq_of_lt (by omega)
      have reached : add32 first count = some (first + count) := if_pos (by omega)
      have back : sub32 (first + count) 1 = some (first + count - 1) := if_pos (by omega)
      have next : add32 (first + count - 1) 1 = some (first + count - 1 + 1) := if_pos (by omega)
      simp only [cut, reached, back, next, Option.bind_eq_bind, Option.bind_some]
    · rfl

end

-- Built sets

namespace IndexRangeSet

/-- Whether the index was newly added, and the set with it. -/
def insertNew (set : IndexRangeSet) (index : Nat) : Bool × IndexRangeSet :=
  if set.contains index then (false, set) else (true, set.insertRange index index)

/-- Whether the index was a member, and the set without it. -/
def removeOld (set : IndexRangeSet) (index : Nat) : Bool × IndexRangeSet :=
  if set.contains index then (true, set.removeRange index index) else (false, set)

/-- A set that calls with 32-bit indices built, and the mathematical set that the same calls
build. -/
inductive Represents : IndexRangeSet → Finset Nat → Prop where
  | new : Represents ∅ ∅
  | insert {set : IndexRangeSet} {members : Finset Nat} (built : Represents set members)
      {index : Nat} (fits : index < 2 ^ 32)
      : Represents (set.insertNew index).2 (members ∪ {index})
  | insertRange {set : IndexRangeSet} {members : Finset Nat} (built : Represents set members)
      (first : Nat) {last : Nat} (fits : last < 2 ^ 32)
      : Represents (set.insertRange first last) (members ∪ Finset.Icc first last)
  | remove {set : IndexRangeSet} {members : Finset Nat} (built : Represents set members)
      (index : Nat)
      : Represents (set.removeOld index).2 (members.erase index)
  | removeRange {set : IndexRangeSet} {members : Finset Nat} (built : Represents set members)
      (first last : Nat)
      : Represents (set.removeRange first last) (members \ Finset.Icc first last)
  | extendFrom {set other : IndexRangeSet} {members more : Finset Nat}
      (built : Represents set members) (given : Represents other more)
      : Represents (set.extendFrom other) (members ∪ more)
  | taken {set : IndexRangeSet} {members : Finset Nat} (built : Represents set members)
      (count : Nat)
      : Represents (set.takeFirst count).1 ((members.sort (· ≤ ·)).take count).toFinset
  | left {set : IndexRangeSet} {members : Finset Nat} (built : Represents set members)
      (count : Nat)
      : Represents (set.takeFirst count).2 ((members.sort (· ≤ ·)).drop count).toFinset

variable {set other : IndexRangeSet} {members : Finset Nat} {index : Nat}

theorem mem_insertNew {other : Nat}
    : other ∈ (set.insertNew index).2 ↔ other ∈ set.insert index := by
  unfold insertNew insert
  split <;> rfl

theorem mem_removeOld {other : Nat}
    : other ∈ (set.removeOld index).2 ↔ other ∈ set.remove index := by
  unfold removeOld remove
  split <;> rfl

theorem iter_eq_sort (same : ∀ index, index ∈ set ↔ index ∈ members)
    : set.iter = members.sort (· ≤ ·) := by
  obtain rfl : set.toFinset = members := Finset.ext fun index => by rw [mem_toFinset, same]
  exact ((List.toFinset_sort _ set.nodup_iter).mpr
    ((sorted_members set.canonical).imp le_of_lt)).symm

/-- The set has exactly the members of the mathematical one, all of 32 bits; by induction on the
calls. -/
theorem Represents.mem (built : Represents set members)
    : (∀ index, index ∈ set ↔ index ∈ members) ∧ ∀ index ∈ members, index < 2 ^ 32 := by
  induction built with
  | new => simp
  | insert _ fits ih =>
    refine ⟨fun index => by simp [mem_insertNew, ih.1, or_comm], fun index listed => ?_⟩
    rcases Finset.mem_union.mp listed with old | new
    · exact ih.2 index old
    · exact Finset.mem_singleton.mp new ▸ fits
  | insertRange _ first fits ih =>
    refine ⟨fun index => by simp [ih.1], fun index listed => ?_⟩
    rcases Finset.mem_union.mp listed with old | new
    · exact ih.2 index old
    · exact (Finset.mem_Icc.mp new).2.trans_lt fits
  | remove _ index ih =>
    refine ⟨fun other => ?_, fun other listed => ih.2 other (Finset.mem_of_mem_erase listed)⟩
    rw [mem_removeOld, mem_remove, ih.1, Finset.mem_erase, and_comm]
  | removeRange _ first last ih =>
    exact ⟨fun index => by simp [ih.1],
      fun index listed => ih.2 index (Finset.mem_sdiff.mp listed).1⟩
  | extendFrom _ _ ih more =>
    exact ⟨fun index => by simp [ih.1, more.1], fun index listed =>
      (Finset.mem_union.mp listed).elim (ih.2 index) (more.2 index)⟩
  | @taken set members _ count ih =>
    refine ⟨fun index => ?_, fun index listed => ih.2 index ?_⟩
    · rw [← mem_iter, (set.iter_takeFirst count).1, iter_eq_sort ih.1, List.mem_toFinset]
    · exact (Finset.mem_sort _).mp (List.mem_of_mem_take (List.mem_toFinset.mp listed))
  | @left set members _ count ih =>
    refine ⟨fun index => ?_, fun index listed => ih.2 index ?_⟩
    · rw [← mem_iter, (set.iter_takeFirst count).2, iter_eq_sort ih.1, List.mem_toFinset]
    · exact (Finset.mem_sort _).mp (List.mem_of_mem_drop (List.mem_toFinset.mp listed))

/-- A set that was built answers as the mathematical set that the same calls build, is determined
by it, and stays in 32 bits with all that is computed on it; what is read back are exactly the
canonical lists. -/
theorem built_set_is_finite_set (built : Represents set members)
    : (∀ range ∈ set.ranges, range.1 ≤ range.2 ∧ range.2 < 2 ^ 32)
      ∧ set.ranges.Pairwise (fun left right => left.2 + 1 < right.1)
      ∧ (∀ index, set.contains index = decide (index ∈ members))
      ∧ (∀ first last, set.containsRange first last = decide (Finset.Icc first last ⊆ members))
      ∧ set.len = members.card
      ∧ set.first = (members.sort (· ≤ ·)).head?
      ∧ set.iter = members.sort (· ≤ ·)
      ∧ (∀ index, (set.insertNew index).1 = decide (index ∉ members)
        ∧ (set.removeOld index).1 = decide (index ∈ members))
      ∧ (∀ count, (set.takeFirst count).1.iter = (members.sort (· ≤ ·)).take count
        ∧ (set.takeFirst count).2.iter = (members.sort (· ≤ ·)).drop count)
      ∧ (∀ first last,
          removeRange32 set.ranges first last = some (set.removeRange first last).ranges)
      ∧ (∀ count, takeFirst32 count set.ranges
          = some ((set.takeFirst count).1.ranges, (set.takeFirst count).2.ranges))
      ∧ (∀ other, Represents other members → other = set)
      ∧ ∀ pairs ranges,
        tryFrom pairs = .ok ranges ↔ ranges = pairs ∧ RangeList.Canonical pairs := by
  obtain ⟨same, fits⟩ := built.mem
  have sorted := iter_eq_sort same
  have small : ∀ range ∈ set.ranges, range.2 < 2 ^ 32 := fun range stored =>
    fits range.2 ((same _).mp ⟨range, stored, set.range_ordered stored, le_rfl⟩)
  have holds (index : Nat) : set.contains index = decide (index ∈ members) := by
    rw [Bool.eq_iff_iff, contains_iff, decide_eq_true_iff, same]
  refine ⟨fun range stored => ⟨set.range_ordered stored, small range stored⟩,
    set.canonical.separated, holds, fun first last => ?_, ?_, ?_, sorted, fun index => ?_,
    fun count => ?_, removeRange32_eq small, takeFirst32_eq small set.canonical,
    fun other another => ?_, fun pairs ranges => by
      simpa [tryFrom] using @tryFromEach_eq_ok [] pairs ranges RangeList.Canonical.nil⟩
  · rw [Bool.eq_iff_iff, containsRange_iff, decide_eq_true_iff]
    simp only [same, Finset.subset_iff, Finset.mem_Icc, and_imp]
  · rw [← card_toFinset]
    exact congrArg _ (Finset.ext fun index => by rw [mem_toFinset, same])
  · rw [← sorted, first, iter, RangeList.members]
    cases set.ranges with
    | nil => rfl
    | cons head rest => simp [List.range'_succ]
  · rw [insertNew, removeOld, holds]
    by_cases member : index ∈ members <;> simp [member]
  · rw [← sorted]
    exact set.iter_takeFirst count
  · exact ext_mem fun index => (another.mem.1 index).trans (same index).symm

/-- A set built of the domain's last index and its first one has the last. -/
theorem ends_of_domain_built
    : (((∅ : IndexRangeSet).insertRange (2 ^ 32 - 1) (2 ^ 32 - 1)).insertNew 0).2.contains
      (2 ^ 32 - 1) = true := by
  have built := built_set_is_finite_set ((Represents.new.insertRange (2 ^ 32 - 1)
    (by decide : 2 ^ 32 - 1 < 2 ^ 32)).insert (by decide : 0 < 2 ^ 32))
  rw [built.2.2.1]
  simp

end IndexRangeSet

end Reliaburger
