import Reliaburger.Library.RangeList

/-! Compact sets of task and chunk indices. The stored ranges are always canonical, so an
ill-formed set cannot be built and every operation is characterised by its members.
-/

namespace Reliaburger

open RangeList

/-- A set of indices kept as sorted, disjoint, non-adjacent inclusive ranges. -/
structure IndexRangeSet where
  ranges : List (Nat × Nat)
  canonical : RangeList.Canonical ranges
deriving DecidableEq

namespace IndexRangeSet

def empty : IndexRangeSet :=
  ⟨[], RangeList.Canonical.nil⟩

instance : EmptyCollection IndexRangeSet := ⟨empty⟩

instance : Inhabited IndexRangeSet := ⟨∅⟩

/-- An index is a member when some stored range holds it. -/
instance : Membership Nat IndexRangeSet :=
  ⟨fun set index => RangeList.Covers set.ranges index⟩

def isEmpty (set : IndexRangeSet) : Bool :=
  set.ranges.isEmpty

/-- How many indices the set has. -/
def len (set : IndexRangeSet) : Nat :=
  RangeList.width set.ranges

/-- Number of stored ranges: the set's real size in memory and on the wire. -/
def rangeCount (set : IndexRangeSet) : Nat :=
  set.ranges.length

def first (set : IndexRangeSet) : Option Nat :=
  set.ranges.head?.map Prod.fst

def contains (set : IndexRangeSet) (index : Nat) : Bool :=
  RangeList.contains set.ranges index

def containsRange (set : IndexRangeSet) (first last : Nat) : Bool :=
  RangeList.containsRange set.ranges first last

def insertRange (set : IndexRangeSet) (first last : Nat) : IndexRangeSet :=
  ⟨RangeList.insertRange set.ranges first last,
    canonical_insertRange set.canonical first last⟩

def removeRange (set : IndexRangeSet) (first last : Nat) : IndexRangeSet :=
  ⟨RangeList.removeRange set.ranges first last,
    canonical_removeRange set.canonical first last⟩

/-- Add one index, leaving the set alone when it is already a member. -/
def insert (set : IndexRangeSet) (index : Nat) : IndexRangeSet :=
  if set.contains index then set else set.insertRange index index

def remove (set : IndexRangeSet) (index : Nat) : IndexRangeSet :=
  if set.contains index then set.removeRange index index else set

def fromRange (first last : Nat) : IndexRangeSet :=
  empty.insertRange first last

/-- Insert the ranges of another set. -/
def extendFrom (set other : IndexRangeSet) : IndexRangeSet :=
  other.ranges.foldl (fun result range => result.insertRange range.1 range.2) set

/-- Split off the lowest indices. -/
def takeFirst (set : IndexRangeSet) (count : Nat) : IndexRangeSet × IndexRangeSet :=
  (⟨(RangeList.takeFirst count set.ranges).1, (canonical_takeFirst set.canonical count).1⟩,
    ⟨(RangeList.takeFirst count set.ranges).2, (canonical_takeFirst set.canonical count).2⟩)

/-- The indices in order. -/
def iter (set : IndexRangeSet) : List Nat :=
  RangeList.members set.ranges

def toFinset (set : IndexRangeSet) : Finset Nat :=
  set.iter.toFinset

-- Membership

variable {index first last : Nat} {set other : IndexRangeSet}

@[simp] theorem contains_iff : set.contains index = true ↔ index ∈ set :=
  RangeList.contains_iff set.canonical index

@[simp] theorem contains_eq_false_iff : set.contains index = false ↔ index ∉ set := by
  rw [← contains_iff, Bool.not_eq_true]

instance (set : IndexRangeSet) (index : Nat) : Decidable (index ∈ set) :=
  decidable_of_iff _ contains_iff

@[simp] theorem not_mem_empty (index : Nat) : index ∉ (∅ : IndexRangeSet) :=
  covers_nil index

@[simp] theorem containsRange_iff
    : set.containsRange first last = true ↔ ∀ index, first ≤ index → index ≤ last → index ∈ set :=
  RangeList.containsRange_iff set.canonical first last

@[simp] theorem mem_insertRange
    : index ∈ set.insertRange first last ↔ index ∈ set ∨ (first ≤ index ∧ index ≤ last) :=
  covers_insertRange set.canonical first last index

@[simp] theorem mem_removeRange
    : index ∈ set.removeRange first last ↔ index ∈ set ∧ ¬ (first ≤ index ∧ index ≤ last) :=
  covers_removeRange set.canonical first last index

@[simp] theorem mem_insert {other : Nat}
    : other ∈ set.insert index ↔ other ∈ set ∨ other = index := by
  unfold insert
  split
  · rename_i present
    have : index ∈ set := contains_iff.mp present
    constructor
    · exact Or.inl
    rintro (member | rfl)
    · exact member
    · exact this
  · rw [mem_insertRange]
    have : (index ≤ other ∧ other ≤ index) ↔ other = index := by omega
    rw [this]

@[simp] theorem mem_remove {other : Nat}
    : other ∈ set.remove index ↔ other ∈ set ∧ other ≠ index := by
  unfold remove
  split
  · rw [mem_removeRange]
    have : (index ≤ other ∧ other ≤ index) ↔ other = index := by omega
    rw [this]
  · rename_i absent
    have : index ∉ set := fun member => absent (contains_iff.mpr member)
    constructor
    · intro member
      exact ⟨member, fun same => this (same ▸ member)⟩
    · exact fun member => member.1

@[simp] theorem mem_fromRange : index ∈ fromRange first last ↔ first ≤ index ∧ index ≤ last := by
  have none : index ∉ empty := not_mem_empty index
  simp [fromRange, none]

/-- Inserting a list of ranges adds exactly what they cover, by induction on the list. -/
private theorem mem_foldl_insertRange (ranges : List (Nat × Nat)) (set : IndexRangeSet)
    (index : Nat)
    : index ∈ ranges.foldl (fun result range => result.insertRange range.1 range.2) set
      ↔ index ∈ set ∨ RangeList.Covers ranges index := by
  induction ranges generalizing set with
  | nil => simp
  | cons head rest ih =>
    simp only [List.foldl_cons, ih, mem_insertRange, covers_cons, or_assoc]

@[simp] theorem mem_extendFrom : index ∈ set.extendFrom other ↔ index ∈ set ∨ index ∈ other :=
  mem_foldl_insertRange other.ranges set index

@[simp] theorem mem_iter : index ∈ set.iter ↔ index ∈ set :=
  mem_members set.canonical index

theorem nodup_iter (set : IndexRangeSet) : set.iter.Nodup :=
  (sorted_members set.canonical).imp ne_of_lt

@[simp] theorem length_iter (set : IndexRangeSet) : set.iter.length = set.len :=
  length_members set.ranges

/-- A set is determined by its members. -/
theorem ext_mem (same : ∀ index, index ∈ set ↔ index ∈ other) : set = other := by
  have equal := eq_of_covers set.canonical other.canonical same
  cases set
  cases other
  simpa using equal

/-- The count smallest members are taken, the others left. -/
theorem iter_takeFirst (set : IndexRangeSet) (count : Nat)
    : (set.takeFirst count).1.iter = set.iter.take count
      ∧ (set.takeFirst count).2.iter = set.iter.drop count :=
  members_takeFirst set.canonical count

@[simp] theorem mem_toFinset : index ∈ set.toFinset ↔ index ∈ set := by
  simp [toFinset]

@[simp] theorem card_toFinset (set : IndexRangeSet) : set.toFinset.card = set.len := by
  rw [toFinset, List.toFinset_card_of_nodup set.nodup_iter, length_iter]

theorem isEmpty_iff : set.isEmpty = true ↔ ∀ index, index ∉ set := by
  rw [isEmpty, List.isEmpty_iff]
  exact eq_nil_iff set.canonical

theorem isEmpty_iff_iter : set.isEmpty = true ↔ set.iter = [] := by
  simp [isEmpty_iff, List.eq_nil_iff_forall_not_mem]

theorem isEmpty_eq_false_iff : set.isEmpty = false ↔ ∃ index, index ∈ set := by
  rw [← Bool.not_eq_true, isEmpty_iff]
  push Not
  rfl

theorem range_ordered {range : Nat × Nat} (stored : range ∈ set.ranges)
    : range.1 ≤ range.2 :=
  set.canonical.ordered range stored

-- Sizes

/-- Adding members that are all new adds their number. -/
theorem len_extendFrom (apart : ∀ index ∈ other, index ∉ set)
    : (set.extendFrom other).len = set.len + other.len := by
  have union : (set.extendFrom other).toFinset = set.toFinset ∪ other.toFinset := by
    ext index
    simp
  have disjoint : Disjoint set.toFinset other.toFinset := by
    rw [Finset.disjoint_right]
    intro index member
    simpa using apart index (mem_toFinset.mp member)
  rw [← card_toFinset, union, Finset.card_union_of_disjoint disjoint, card_toFinset, card_toFinset]

/-- Inserting a range of new members adds its width. -/
theorem len_insertRange (ordered : first ≤ last)
    (apart : ∀ index, first ≤ index → index ≤ last → index ∉ set)
    : (set.insertRange first last).len = set.len + (last - first + 1) := by
  have union : (set.insertRange first last).toFinset
      = set.toFinset ∪ Finset.Icc first last := by
    ext index
    simp
  have disjoint : Disjoint set.toFinset (Finset.Icc first last) := by
    rw [Finset.disjoint_right]
    intro index member
    obtain ⟨low, high⟩ := Finset.mem_Icc.mp member
    simpa using apart index low high
  rw [← card_toFinset, union, Finset.card_union_of_disjoint disjoint, card_toFinset, Nat.card_Icc]
  omega

theorem len_insert (new : index ∉ set)
    : (set.insert index).len = set.len + 1 := by
  have absent : set.contains index = false := contains_eq_false_iff.mpr new
  simp only [insert, absent, Bool.false_eq_true, if_false]
  rw [len_insertRange (le_refl index)]
  · omega
  intro other low high
  obtain rfl : other = index := by omega
  exact new

theorem len_mono (subset : ∀ index ∈ set, index ∈ other)
    : set.len ≤ other.len := by
  rw [← card_toFinset, ← card_toFinset]
  apply Finset.card_le_card
  intro index member
  simpa using subset index (mem_toFinset.mp member)

theorem rangeCount_insertRange_le (set : IndexRangeSet) (first last : Nat)
    : (set.insertRange first last).rangeCount ≤ set.rangeCount + 1 :=
  length_insertRange_le set.canonical first last

end IndexRangeSet

end Reliaburger
