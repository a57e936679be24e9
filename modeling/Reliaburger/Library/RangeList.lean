import Mathlib

/-! Lists of inclusive ranges of natural numbers, kept sorted, disjoint and non-adjacent.
The operations cut the list at partition points; on a canonical list each of them is a recursion
over the ranges, and everything is proved by induction along it.
-/

namespace RangeList

/-- Index of the first element that fails `p`, for a list whose `p`-elements come first. -/
def partitionPoint {α : Type*} (p : α → Bool) (items : List α) : Nat :=
  (items.takeWhile p).length

/-- Every range is non-empty and starts at least two past the end of the one before it. -/
structure Canonical (ranges : List (Nat × Nat)) : Prop where
  ordered : ∀ range ∈ ranges, range.1 ≤ range.2
  separated : ranges.Pairwise (fun left right => left.2 + 1 < right.1)

/-- Some range of the list has the index. -/
def Covers (ranges : List (Nat × Nat)) (index : Nat) : Prop :=
  ∃ range ∈ ranges, range.1 ≤ index ∧ index ≤ range.2

/-- Add every index from `first` to `last`, merging with overlapping and touching ranges. -/
def insertRange (ranges : List (Nat × Nat)) (first last : Nat) : List (Nat × Nat) :=
  if first > last then ranges
  else
    let start := partitionPoint (fun range => decide (range.2 + 1 < first)) ranges
    let stop := partitionPoint (fun range => decide (range.1 ≤ last + 1)) ranges
    let merged :=
      if start < stop then
        (min first (ranges.getD start (first, last)).1,
          max last (ranges.getD (stop - 1) (first, last)).2)
      else (first, last)
    ranges.take start ++ merged :: ranges.drop stop

/-- Remove every index from `first` to `last`, splitting the ranges at both ends. -/
def removeRange (ranges : List (Nat × Nat)) (first last : Nat) : List (Nat × Nat) :=
  if first > last then ranges
  else
    let start := partitionPoint (fun range => decide (range.2 < first)) ranges
    let stop := partitionPoint (fun range => decide (range.1 ≤ last)) ranges
    if start ≥ stop then ranges
    else
      let head := (ranges.getD start (first, last)).1
      let tail := (ranges.getD (stop - 1) (first, last)).2
      let left := if head < first then [(head, first - 1)] else []
      let right := if tail > last then [(last + 1, tail)] else []
      ranges.take start ++ (left ++ right) ++ ranges.drop stop

/-- How many indices disjoint ranges have. -/
def width (ranges : List (Nat × Nat)) : Nat :=
  (ranges.map (fun range => range.2 - range.1 + 1)).sum

/-- Whether `index` lies in the range the partition point selects. -/
def contains (ranges : List (Nat × Nat)) (index : Nat) : Bool :=
  match ranges[partitionPoint (fun range => decide (range.2 < index)) ranges]? with
  | some range => decide (range.1 ≤ index)
  | none => false

def containsRange (ranges : List (Nat × Nat)) (first last : Nat) : Bool :=
  if first > last then true
  else
    match ranges[partitionPoint (fun range => decide (range.2 < first)) ranges]? with
    | some range => decide (range.1 ≤ first) && decide (last ≤ range.2)
    | none => false

/-- The indices covered, smallest first. -/
def members (ranges : List (Nat × Nat)) : List Nat :=
  ranges.flatMap (fun range => List.range' range.1 (range.2 - range.1 + 1))

/-- Split off the `count` smallest indices: whole ranges, then a cut of the next one. -/
def takeFirst : Nat → List (Nat × Nat) → List (Nat × Nat) × List (Nat × Nat)
  | _, [] => ([], [])
  | count, (first, last) :: rest =>
    let width := last - first + 1
    if width ≤ count then
      let (taken, left) := takeFirst (count - width) rest
      ((first, last) :: taken, left)
    else if count > 0 then
      let cut := first + count - 1
      ([(first, cut)], (cut + 1, last) :: rest)
    else ([], (first, last) :: rest)

-- Canonical lists

variable {ranges rest other : List (Nat × Nat)} {head : Nat × Nat} {first last index : Nat}

theorem Canonical.nil : Canonical [] :=
  ⟨by simp, List.Pairwise.nil⟩

theorem canonical_cons
    : Canonical (head :: rest)
      ↔ Canonical rest ∧ head.1 ≤ head.2 ∧ ∀ range ∈ rest, head.2 + 1 < range.1 := by
  constructor
  · intro canonical
    obtain ⟨apart, separated⟩ := List.pairwise_cons.mp canonical.separated
    obtain ⟨ordered, later⟩ := List.forall_mem_cons.mp canonical.ordered
    exact ⟨⟨later, separated⟩, ordered, apart⟩
  · rintro ⟨canonical, ordered, apart⟩
    exact ⟨List.forall_mem_cons.mpr ⟨ordered, canonical.ordered⟩,
      List.pairwise_cons.mpr ⟨apart, canonical.separated⟩⟩

@[simp] theorem covers_nil (index : Nat) : ¬ Covers [] index := by
  simp [Covers]

@[simp] theorem covers_cons (range : Nat × Nat) (rest : List (Nat × Nat)) (index : Nat)
    : Covers (range :: rest) index ↔ (range.1 ≤ index ∧ index ≤ range.2) ∨ Covers rest index := by
  simp [Covers]

/-- Every index of the tail lies beyond the first range. -/
theorem Canonical.beyond (canonical : Canonical (head :: rest)) (covered : Covers rest index)
    : head.2 + 1 < index := by
  obtain ⟨range, member, _, _⟩ := covered
  have := (canonical_cons.mp canonical).2.2 range member
  omega

/-- A canonical list stays so behind a range that all its indices are beyond. -/
theorem Canonical.cons (canonical : Canonical rest) (ordered : head.1 ≤ head.2)
    (beyond : ∀ index, Covers rest index → head.2 + 1 < index)
    : Canonical (head :: rest) :=
  canonical_cons.mpr ⟨canonical, ordered, fun range member =>
    beyond range.1 ⟨range, member, le_rfl, canonical.ordered range member⟩⟩

/-- A canonical list covers nothing exactly when it is empty. -/
theorem eq_nil_iff (canonical : Canonical ranges)
    : ranges = [] ↔ ∀ index, ¬ Covers ranges index := by
  refine ⟨by rintro rfl; simp, fun none => ?_⟩
  cases ranges with
  | nil => rfl
  | cons head rest =>
    exact absurd ⟨head, List.mem_cons_self, le_rfl, canonical.ordered head (by simp)⟩ (none head.1)

-- Partition points

variable {α : Type*}

@[simp] theorem partitionPoint_cons (p : α → Bool) (item : α) (items : List α)
    : partitionPoint p (item :: items) = if p item then partitionPoint p items + 1 else 0 := by
  unfold partitionPoint
  cases holds : p item <;> simp [holds]

theorem partitionPoint_congr {p q : α → Bool} {items : List α}
    (same : ∀ item ∈ items, p item = q item)
    : partitionPoint p items = partitionPoint q items := by
  induction items with
  | nil => rfl
  | cons item items ih =>
    obtain ⟨here, later⟩ := List.forall_mem_cons.mp same
    rw [partitionPoint_cons, partitionPoint_cons, here, ih later]

theorem partitionPoint_le (p : α → Bool) (items : List α)
    : partitionPoint p items ≤ items.length :=
  (List.takeWhile_sublist p).length_le

theorem partitionPoint_eq_zero {p : α → Bool} {items : List α}
    (none : ∀ item ∈ items, p item = false)
    : partitionPoint p items = 0 := by
  cases items with
  | nil => rfl
  | cons item items => simp [none item List.mem_cons_self]

theorem getD_mem {position : Nat} (inside : position < ranges.length) (default : Nat × Nat)
    : ranges.getD position default ∈ ranges := by
  rw [List.getD_eq_getElem _ _ inside]
  exact List.getElem_mem inside

theorem getD_congr {position : Nat} (inside : position < ranges.length) (one two : Nat × Nat)
    : ranges.getD position one = ranges.getD position two := by
  rw [List.getD_eq_getElem _ _ inside, List.getD_eq_getElem _ _ inside]

-- Insertion

@[simp] theorem insertRange_nil (ordered : first ≤ last)
    : insertRange [] first last = [(first, last)] := by
  simp [insertRange, partitionPoint, Nat.not_lt.mpr ordered]

/-- Insertion passes the ranges that end before the interval, and takes those that touch it into
the interval. -/
theorem insertRange_cons (canonical : Canonical (head :: rest)) (ordered : first ≤ last)
    : insertRange (head :: rest) first last
      = if head.2 + 1 < first then head :: insertRange rest first last
        else if head.1 ≤ last + 1 then insertRange rest (min first head.1) (max last head.2)
        else (first, last) :: head :: rest := by
  obtain ⟨tail, _, apart⟩ := canonical_cons.mp canonical
  have running : ¬ first > last := Nat.not_lt.mpr ordered
  have wider : ¬ min first head.1 > max last head.2 := by omega
  split
  · next early =>
    have near : head.1 ≤ last + 1 := by omega
    simp only [insertRange, running, if_false, partitionPoint_cons, early, near, decide_true,
      if_true]
    generalize partitionPoint (fun range => decide (range.1 ≤ last + 1)) rest = stop
    cases stop <;> simp
  split
  · next late near =>
    have start : partitionPoint (fun range => decide (range.2 + 1 < min first head.1)) rest = 0 :=
      partitionPoint_eq_zero fun range member => by
        have := apart range member
        have := tail.ordered range member
        simp only [decide_eq_false_iff_not]
        omega
    have stop : partitionPoint (fun range => decide (range.1 ≤ max last head.2 + 1)) rest
        = partitionPoint (fun range => decide (range.1 ≤ last + 1)) rest :=
      partitionPoint_congr fun range member => by
        have := apart range member
        exact decide_eq_decide.mpr (by omega)
    have short := partitionPoint_le (fun range => decide (range.1 ≤ last + 1)) rest
    simp only [insertRange, running, wider, if_false, partitionPoint_cons, late, near, decide_true,
      decide_false, Bool.false_eq_true, if_true, start, stop]
    generalize partitionPoint (fun range => decide (range.1 ≤ last + 1)) rest = stop at short ⊢
    rcases stop with _ | stop
    · simp
    have starts : 0 < rest.length := by omega
    have ends : stop < rest.length := by omega
    have low := apart _ (getD_mem starts (min first head.1, max last head.2))
    have high := apart _ (getD_mem ends (first, last))
    have wide := tail.ordered _ (getD_mem ends (first, last))
    simp only [Nat.zero_lt_succ, if_true, List.take_zero, List.nil_append, List.drop_succ_cons,
      Nat.add_sub_cancel, List.getD_cons_zero, List.getD_cons_succ,
      getD_congr ends (min first head.1, max last head.2) (first, last)]
    refine congrArg (· :: _) (Prod.ext ?_ ?_) <;> simp only <;> omega
  · next late far => simp [insertRange, running, late, far]

/-- An insertion covers what was covered, and its own range. -/
theorem covers_insertRange (canonical : Canonical ranges) (first last index : Nat)
    : Covers (insertRange ranges first last) index
      ↔ Covers ranges index ∨ (first ≤ index ∧ index ≤ last) := by
  by_cases ordered : first ≤ last
  · induction ranges generalizing first last with
    | nil => simp [ordered]
    | cons head rest ih =>
      obtain ⟨tail, _, _⟩ := canonical_cons.mp canonical
      rw [insertRange_cons canonical ordered]
      split
      · rw [covers_cons, covers_cons, ih tail _ _ ordered, or_assoc]
      split
      · have merged : (min first head.1 ≤ index ∧ index ≤ max last head.2)
            ↔ (head.1 ≤ index ∧ index ≤ head.2) ∨ (first ≤ index ∧ index ≤ last) := by
          omega
        rw [ih tail _ _ (by omega), covers_cons, merged]
        tauto
      · rw [covers_cons]
        exact or_comm
  · rw [insertRange, if_pos (Nat.lt_of_not_le ordered)]
    exact (or_iff_left (by omega)).symm

/-- An insertion keeps the ranges in order and apart. -/
theorem canonical_insertRange (canonical : Canonical ranges) (first last : Nat)
    : Canonical (insertRange ranges first last) := by
  by_cases ordered : first ≤ last
  · induction ranges generalizing first last with
    | nil =>
      rw [insertRange_nil ordered]
      exact Canonical.nil.cons ordered (by simp)
    | cons head rest ih =>
      obtain ⟨tail, small, _⟩ := canonical_cons.mp canonical
      rw [insertRange_cons canonical ordered]
      split
      · refine (ih tail _ _ ordered).cons small fun index covered => ?_
        rcases (covers_insertRange tail _ _ _).mp covered with old | _
        · exact canonical.beyond old
        · omega
      split
      · exact ih tail _ _ (by omega)
      refine canonical.cons ordered fun index covered => ?_
      rcases (covers_cons _ _ _).mp covered with _ | later
      · simp only
        omega
      · have := canonical.beyond later
        simp only
        omega
  · rwa [insertRange, if_pos (Nat.lt_of_not_le ordered)]

/-- An insertion adds at most one range. -/
theorem length_insertRange_le (canonical : Canonical ranges) (first last : Nat)
    : (insertRange ranges first last).length ≤ ranges.length + 1 := by
  by_cases ordered : first ≤ last
  · induction ranges generalizing first last with
    | nil => simp [ordered]
    | cons head rest ih =>
      have tail := (canonical_cons.mp canonical).1
      rw [insertRange_cons canonical ordered]
      split
      · simpa using ih tail _ _ ordered
      split
      · exact (ih tail _ _ (by omega)).trans (by simp)
      · simp
  · simp [insertRange, Nat.lt_of_not_le ordered]

-- Removal

/-- Removal passes the ranges that end before the interval, cuts those that overlap it and stops
at the first that reaches beyond it. -/
theorem removeRange_cons (canonical : Canonical (head :: rest)) (ordered : first ≤ last)
    : removeRange (head :: rest) first last
      = if head.2 < first then head :: removeRange rest first last
        else if head.1 ≤ last then
          (if head.1 < first then [(head.1, first - 1)] else [])
            ++ if head.2 > last then (last + 1, head.2) :: rest else removeRange rest first last
        else head :: rest := by
  obtain ⟨tail, _, apart⟩ := canonical_cons.mp canonical
  have running : ¬ first > last := Nat.not_lt.mpr ordered
  split
  · next early =>
    have near : head.1 ≤ last := by omega
    simp only [removeRange, running, if_false, partitionPoint_cons, early, near, decide_true,
      if_true]
    generalize partitionPoint (fun range => decide (range.1 ≤ last)) rest = stop
    rcases stop with _ | stop
    · simp
    simp only [ge_iff_le, Nat.add_le_add_iff_right, Nat.add_sub_cancel, List.take_succ_cons,
      List.drop_succ_cons, List.getD_cons_succ, List.cons_append]
    split <;> simp
  split
  · next late near =>
    have start : partitionPoint (fun range => decide (range.2 < first)) rest = 0 :=
      partitionPoint_eq_zero fun range member => by
        have := apart range member
        have := tail.ordered range member
        simp only [decide_eq_false_iff_not]
        omega
    have short := partitionPoint_le (fun range => decide (range.1 ≤ last)) rest
    simp only [removeRange, running, if_false, partitionPoint_cons, late, near, decide_true,
      decide_false, Bool.false_eq_true, if_true, start]
    by_cases past : head.2 > last
    · rw [if_pos past]
      have stop : partitionPoint (fun range => decide (range.1 ≤ last)) rest = 0 :=
        partitionPoint_eq_zero fun range member => by
          have := apart range member
          simp only [decide_eq_false_iff_not]
          omega
      simp [stop, past]
    · rw [if_neg past]
      generalize partitionPoint (fun range => decide (range.1 ≤ last)) rest = stop at short ⊢
      rcases stop with _ | _
      · simp [past]
      have low := apart _ (getD_mem (by omega : 0 < rest.length) (first, last))
      rw [List.getD_eq_getElem?_getD] at low
      simp only [List.getD_eq_getElem?_getD, ge_iff_le, Nat.le_zero, Nat.add_eq_zero_iff,
        Nat.add_sub_cancel, List.getElem?_cons_zero, List.getElem?_cons_succ, Option.getD_some,
        if_neg (show ¬ (rest[0]?.getD (first, last)).1 < first by omega)]
      simp
  · next late far => simp [removeRange, running, late, far]

section

variable (canonical : Canonical ranges)
include canonical

/-- A removal covers what was covered outside its range. -/
theorem covers_removeRange (first last index : Nat)
    : Covers (removeRange ranges first last) index
      ↔ Covers ranges index ∧ ¬ (first ≤ index ∧ index ≤ last) := by
  by_cases ordered : first ≤ last
  · induction ranges with
    | nil => simp [removeRange, partitionPoint]
    | cons head rest ih =>
      obtain ⟨tail, _, _⟩ := canonical_cons.mp canonical
      have beyond : Covers rest index → head.2 + 1 < index := canonical.beyond
      rw [removeRange_cons canonical ordered]
      split_ifs <;>
        simp only [List.nil_append, List.cons_append, covers_cons, ih tail] <;> grind
  · rw [removeRange, if_pos (Nat.lt_of_not_le ordered)]
    exact (and_iff_left (by omega)).symm

theorem canonical_removeRange (first last : Nat)
    : Canonical (removeRange ranges first last) := by
  by_cases ordered : first ≤ last
  · induction ranges with
    | nil => simpa [removeRange, partitionPoint] using canonical
    | cons head rest ih =>
      obtain ⟨tail, small, _⟩ := canonical_cons.mp canonical
      have left {index : Nat} (covered : Covers (removeRange rest first last) index)
          : head.2 + 1 < index :=
        canonical.beyond ((covers_removeRange tail _ _ _).mp covered).1
      have right : head.2 > last → Canonical ((last + 1, head.2) :: rest) := fun past =>
        tail.cons (by simp only; omega) fun index covered => canonical.beyond covered
      rw [removeRange_cons canonical ordered]
      split_ifs with early near cut past past
      · exact (ih tail).cons small fun index => left
      · refine (right past).cons (by simp only; omega) fun index covered => ?_
        rcases (covers_cons _ _ _).mp covered with here | later
        · simp only at here ⊢
          omega
        · have := canonical.beyond later
          simp only
          omega
      · refine (ih tail).cons (by simp only; omega) fun index covered => ?_
        have := left covered
        simp only
        omega
      · exact right past
      · exact ih tail
      · exact canonical
  · rwa [removeRange, if_pos (Nat.lt_of_not_le ordered)]

-- Queries

/-- The search finds exactly what is covered. -/
theorem contains_iff (index : Nat)
    : contains ranges index = true ↔ Covers ranges index := by
  induction ranges with
  | nil => simp [contains]
  | cons head rest ih =>
    obtain ⟨tail, _, _⟩ := canonical_cons.mp canonical
    unfold contains at ih ⊢
    rw [partitionPoint_cons, covers_cons, ← ih tail]
    by_cases early : head.2 < index
    · simp [early]
    have none : ¬ Covers rest index := fun later => early (by linarith [canonical.beyond later])
    rw [ih tail]
    simp [early, none]
    omega

theorem containsRange_iff (first last : Nat)
    : containsRange ranges first last = true
      ↔ ∀ index, first ≤ index → index ≤ last → Covers ranges index := by
  by_cases ordered : first ≤ last
  · unfold containsRange
    rw [if_neg (Nat.not_lt.mpr ordered)]
    induction ranges with
    | nil =>
      simp only [List.getElem?_nil, Bool.false_eq_true, covers_nil, false_iff, not_forall]
      exact ⟨first, le_rfl, ordered, not_false⟩
    | cons head rest ih =>
      obtain ⟨tail, _, _⟩ := canonical_cons.mp canonical
      rw [partitionPoint_cons]
      by_cases early : head.2 < first
      · simp only [early, decide_true, if_true, List.getElem?_cons_succ]
        rw [ih tail]
        refine forall₃_congr fun index low high => ?_
        rw [covers_cons]
        exact (or_iff_right (by omega)).symm
      · simp only [early, decide_false, Bool.false_eq_true, if_false, List.getElem?_cons_zero,
          Bool.and_eq_true, decide_eq_true_eq]
        constructor
        · rintro ⟨low, high⟩ index _ _
          exact (covers_cons _ _ _).mpr (.inl (by omega))
        intro covered
        have here {index : Nat} (low : first ≤ index) (high : index ≤ last)
            (close : index ≤ head.2 + 1)
            : head.1 ≤ index ∧ index ≤ head.2 :=
          ((covers_cons _ _ _).mp (covered index low high)).resolve_right fun later => by
            have := canonical.beyond later
            omega
        refine ⟨(here le_rfl ordered (by omega)).1, ?_⟩
        -- The index just past the range is covered by no range of a canonical list.
        by_contra short
        have past := here (by omega : first ≤ head.2 + 1) (by omega) le_rfl
        omega
  · simp only [containsRange, if_pos (Nat.lt_of_not_le ordered), true_iff]
    intro index low high
    omega

end

-- Members

@[simp] theorem length_members (ranges : List (Nat × Nat))
    : (members ranges).length = width ranges := by
  simp [members, width, List.length_flatMap]

section

variable (canonical : Canonical ranges)
include canonical

/-- The members are the indices that are covered. -/
theorem mem_members (index : Nat)
    : index ∈ members ranges ↔ Covers ranges index := by
  simp only [members, List.mem_flatMap, List.mem_range'_1, Covers]
  refine exists_congr fun range => and_congr_right fun member => ?_
  have := canonical.ordered range member
  omega

theorem sorted_members
    : (members ranges).Pairwise (· < ·) := by
  induction ranges with
  | nil => exact .nil
  | cons head rest ih =>
    have tail := (canonical_cons.mp canonical).1
    rw [members, List.flatMap_cons]
    refine List.pairwise_append.mpr ⟨List.pairwise_lt_range', ih tail, ?_⟩
    intro left here right later
    have := canonical.beyond ((mem_members tail right).mp later)
    have := List.mem_range'_1.mp here
    have := (canonical_cons.mp canonical).2.1
    omega

/-- The ranges of a canonical list are determined by what they cover, by induction on both. -/
theorem eq_of_covers (canonical' : Canonical other)
    (same : ∀ index, Covers ranges index ↔ Covers other index)
    : ranges = other := by
  induction ranges generalizing other with
  | nil => exact ((eq_nil_iff canonical').mpr fun index => by simp [← same]).symm
  | cons head rest ih =>
    cases other with
    | nil => exact (eq_nil_iff canonical).mpr fun index => by simp [same]
    | cons head' rest' =>
      obtain ⟨tail, small, _⟩ := canonical_cons.mp canonical
      obtain ⟨tail', small', _⟩ := canonical_cons.mp canonical'
      have beyond {index : Nat} : Covers rest index → head.2 + 1 < index := canonical.beyond
      have beyond' {index : Nat} : Covers rest' index → head'.2 + 1 < index := canonical'.beyond
      simp only [covers_cons] at same
      have starts : head.1 = head'.1 := by
        have one := (same head.1).mp (.inl ⟨le_rfl, small⟩)
        have two := (same head'.1).mpr (.inl ⟨le_rfl, small'⟩)
        rcases one with one | one <;> rcases two with two | two <;>
          (try have := beyond two) <;> (try have := beyond' one) <;> omega
      have ends : head.2 = head'.2 := by
        have one := (same (head'.2 + 1)).mp
        have two := (same (head.2 + 1)).mpr
        have none : ¬ Covers rest (head.2 + 1) := fun later => (beyond later).false
        have none' : ¬ Covers rest' (head'.2 + 1) := fun later => (beyond' later).false
        simp only [none, none', or_false] at one two
        have := fun less => one (.inl less)
        have := fun less => two (.inl less)
        omega
      obtain rfl : head = head' := Prod.ext starts ends
      rw [ih tail tail' fun index => ?_]
      constructor
      · exact fun later => ((same index).mp (.inr later)).resolve_left
          (by have := beyond later; omega)
      · exact fun later => ((same index).mpr (.inr later)).resolve_left
          (by have := beyond' later; omega)

-- The smallest indices

/-- The first indices are taken and the others left, by induction on the ranges. -/
theorem members_takeFirst (count : Nat)
    : members (takeFirst count ranges).1 = (members ranges).take count
      ∧ members (takeFirst count ranges).2 = (members ranges).drop count := by
  induction ranges generalizing count with
  | nil => simp [takeFirst, members]
  | cons head rest ih =>
    obtain ⟨first, last⟩ := head
    obtain ⟨tail, ordered, _⟩ := canonical_cons.mp canonical
    simp only at ordered
    unfold takeFirst
    simp only
    split
    · next whole =>
      obtain ⟨taken, left⟩ := ih tail (count - (last - first + 1))
      simp only [members, List.flatMap_cons] at taken left ⊢
      have all : (List.range' first (last - first + 1)).length ≤ count := by simpa using whole
      rw [taken, left, List.take_append, List.drop_append, List.take_of_length_le all,
        List.drop_of_length_le all, List.length_range', List.nil_append]
      exact ⟨rfl, rfl⟩
    split
    · next narrow positive =>
      have taken : first + count - 1 - first + 1 = count := by omega
      have left : first + count - 1 + 1 = first + count := by omega
      have whole : List.range' first (last - first + 1)
          = List.range' first count
            ++ List.range' (first + count) (last - (first + count) + 1) := by
        rw [List.range'_append_1,
          show count + (last - (first + count) + 1) = last - first + 1 by omega]
      simp only [members, List.flatMap_cons, List.flatMap_nil, List.append_nil, taken, left, whole,
        List.append_assoc]
      exact ⟨(List.take_left' (by simp)).symm, (List.drop_left' (by simp)).symm⟩
    · next narrow none =>
      obtain rfl : count = 0 := by omega
      simp [members]

/-- A range of either part starts inside a range of the list. -/
theorem canonical_takeFirst (count : Nat)
    : Canonical (takeFirst count ranges).1 ∧ Canonical (takeFirst count ranges).2 := by
  suffices inside : (Canonical (takeFirst count ranges).1 ∧ Canonical (takeFirst count ranges).2)
      ∧ ∀ index, Covers (takeFirst count ranges).1 index → Covers ranges index from inside.1
  induction ranges generalizing count with
  | nil => simp [takeFirst, Canonical.nil]
  | cons head rest ih =>
    obtain ⟨first, last⟩ := head
    obtain ⟨tail, ordered, _⟩ := canonical_cons.mp canonical
    simp only at ordered
    unfold takeFirst
    simp only
    split
    · obtain ⟨⟨taken, left⟩, covers⟩ := ih tail (count - (last - first + 1))
      refine ⟨⟨taken.cons ordered fun index covered => canonical.beyond (covers index covered),
        left⟩, fun index covered => ?_⟩
      rw [covers_cons] at covered ⊢
      exact covered.imp_right (covers index)
    split
    · refine ⟨⟨Canonical.nil.cons (by simp only; omega) (by simp),
        tail.cons (by simp only; omega) fun index => canonical.beyond⟩, fun index covered => ?_⟩
      simp only [covers_cons, covers_nil, or_false] at covered ⊢
      exact .inl (by omega)
    · exact ⟨⟨.nil, canonical⟩, by simp⟩

end

end RangeList
