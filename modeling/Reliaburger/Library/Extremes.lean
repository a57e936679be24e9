import Mathlib

/-! The greatest item of a list under a comparison, the last one where several are greatest. -/

namespace Extremes

variable {Item : Type}

/-- The greater of the best item so far and a new one, which wins a tie. -/
def better (cmp : Item → Item → Ordering) (best : Option Item) (item : Item) : Option Item :=
  match best with
  | none => some item
  | some held => if cmp held item = .gt then some held else some item

/-- The greatest item, the last of those that compare equal. -/
def maxBy (cmp : Item → Item → Ordering) (items : List Item) : Option Item :=
  items.foldl (better cmp) none

theorem better_cases (cmp : Item → Item → Ordering) (best : Option Item) (item : Item)
    : better cmp best item = best ∧ best.isSome ∨ better cmp best item = some item := by
  unfold better
  split
  · exact .inr rfl
  split
  · exact .inl ⟨rfl, rfl⟩
  · exact .inr rfl

variable {cmp : Item → Item → Ordering} {items : List Item}

/-- The best so far is the first one or an item, by induction on the items. -/
theorem foldl_better_mem {best : Option Item} {item : Item}
    (found : items.foldl (better cmp) best = some item)
    : best = some item ∨ item ∈ items := by
  induction items generalizing best with
  | nil => exact .inl found
  | cons head rest ih =>
    rcases ih found with kept | later
    · rcases better_cases cmp best head with ⟨same, _⟩ | taken
      · exact .inl (same ▸ kept)
      · rw [taken] at kept
        exact .inr (List.mem_cons.mpr (.inl (Option.some.inj kept).symm))
    · exact .inr (List.mem_cons_of_mem _ later)

theorem maxBy_mem {item : Item} (found : maxBy cmp items = some item)
    : item ∈ items := by
  rcases foldl_better_mem found with started | listed
  · simp at started
  · exact listed

theorem foldl_better_isSome (cmp : Item → Item → Ordering) {best : Option Item}
    (some_ : best.isSome ∨ items ≠ [])
    : (items.foldl (better cmp) best).isSome := by
  induction items generalizing best with
  | nil => simpa using some_
  | cons head rest ih =>
    apply ih
    rcases better_cases cmp best head with ⟨same, held⟩ | taken
    · exact .inl (by rw [same]; exact held)
    · exact .inl (by simp [taken])

/-- Only an empty list has no best item. -/
@[simp] theorem maxBy_eq_none : maxBy cmp items = none ↔ items = [] := by
  constructor
  · intro empty
    by_contra filled
    have found := foldl_better_isSome cmp (@Or.inr (none : Option Item).isSome _ filled)
    rw [← maxBy, empty] at found
    simp at found
  · rintro rfl
    rfl

@[simp] theorem maxBy_singleton (cmp : Item → Item → Ordering) (item : Item)
    : maxBy cmp [item] = some item := rfl

end Extremes
