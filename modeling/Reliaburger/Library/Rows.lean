import Mathlib

/-! Tables kept as lists of rows: the first row that fits is changed in place, or a new one is
put at the end. While every key has at most one row, such a list is a finite map.
-/

namespace Rows

variable {Row Key : Type}

/-- Change the first row that fits. -/
def changeFirst (fits : Row → Bool) (change : Row → Row) : List Row → List Row
  | [] => []
  | row :: rest =>
    if fits row then change row :: rest else row :: changeFirst fits change rest

/-- Change the first row that fits, or append a new one. -/
def changeOrPush (fits : Row → Bool) (change : Row → Row) (new : Row) (rows : List Row)
    : List Row :=
  if rows.any fits then changeFirst fits change rows else rows ++ [new]

/-- No two rows have the same key. -/
def Unique (key : Row → Key) (rows : List Row) : Prop :=
  (rows.map key).Nodup

variable {key : Row → Key} {fits : Row → Bool} {change : Row → Row}

variable {rows : List Row} {row : Row}

section

variable (unique : Unique key rows)
include unique

/-- In unique rows the key tells the row. -/
theorem Unique.eq {first second : Row} (inFirst : first ∈ rows)
    (inSecond : second ∈ rows) (same : key first = key second)
    : first = second :=
  List.inj_on_of_nodup_map unique inFirst inSecond same

theorem Unique.filter (keep : Row → Bool)
    : Unique key (rows.filter keep) :=
  (List.filter_sublist.map key).nodup unique

/-- Changes that keep the keys keep them unique. -/
theorem Unique.map (keeps : ∀ row, key (change row) = key row)
    : Unique key (rows.map change) := by
  unfold Unique at unique ⊢
  rwa [List.map_map, show key ∘ change = key from funext keeps]

/-- A row with a new key may be appended. -/
theorem Unique.push {new : Row}
    (absent : ∀ row ∈ rows, key row ≠ key new)
    : Unique key (rows ++ [new]) := by
  unfold Unique at unique ⊢
  rw [List.map_append, List.map_singleton]
  refine List.nodup_append.mpr ⟨unique, List.nodup_singleton _, ?_⟩
  intro taken member other same
  obtain ⟨row, listed, rfl⟩ := List.mem_map.mp member
  rw [List.mem_singleton.mp same]
  exact absent row listed

/-- The row with a key is the one that a search by key finds. -/
theorem Unique.find_eq (listed : row ∈ rows)
    (selects : ∀ other, fits other = true ↔ key other = key row)
    : rows.find? fits = some row := by
  cases found : rows.find? fits with
  | none =>
    have unfit := List.find?_eq_none.mp found row listed
    exact absurd ((selects row).mpr rfl) unfit
  | some other =>
    have sameKey := (selects other).mp (List.find?_some found)
    rw [unique.eq (List.mem_of_find?_eq_some found) listed sameKey]

end

/-- A change that keeps keys keeps the list of keys, by induction on the rows. -/
theorem map_changeFirst (keeps : ∀ row, fits row = true → key (change row) = key row)
    (rows : List Row)
    : (changeFirst fits change rows).map key = rows.map key := by
  induction rows with
  | nil => rfl
  | cons row rest ih =>
    unfold changeFirst
    split
    · rename_i fitting
      simp [keeps row fitting]
    · simp [ih]

theorem Unique.changeFirst (unique : Unique key rows)
    (keeps : ∀ row, fits row = true → key (change row) = key row)
    : Unique key (changeFirst fits change rows) := by
  unfold Unique at unique ⊢
  rwa [map_changeFirst keeps]

/-- A row after the change was there before, or is a changed one. -/
theorem mem_of_changeFirst (member : row ∈ changeFirst fits change rows)
    : row ∈ rows ∨ ∃ old ∈ rows, fits old = true ∧ row = change old := by
  induction rows with
  | nil => cases member
  | cons head rest ih =>
    unfold changeFirst at member
    split at member
    · rename_i fitting
      rcases List.mem_cons.mp member with rfl | later
      · exact .inr ⟨head, List.mem_cons_self, fitting, rfl⟩
      · exact .inl (List.mem_cons_of_mem _ later)
    · rcases List.mem_cons.mp member with rfl | later
      · exact .inl List.mem_cons_self
      rcases ih later with kept | ⟨old, listed, fitting, isChanged⟩
      · exact .inl (List.mem_cons_of_mem _ kept)
      · exact .inr ⟨old, List.mem_cons_of_mem _ listed, fitting, isChanged⟩

/-- With unique keys, only the row of that key changes. -/
theorem mem_changeFirst (unique : Unique key rows) {at_ : Key}
    (selects : ∀ row, fits row = true ↔ key row = at_)
    : row ∈ changeFirst fits change rows
      ↔ (∃ old ∈ rows, key old = at_ ∧ row = change old) ∨ (row ∈ rows ∧ key row ≠ at_) := by
  induction rows with
  | nil => simp [changeFirst]
  | cons head rest ih =>
    obtain ⟨new, others⟩ := List.nodup_cons.mp unique
    unfold changeFirst
    split
    · rename_i fitting
      have isKey := (selects head).mp fitting
      have elsewhere : ∀ other ∈ rest, key other ≠ at_ := by
        intro other member same
        exact new (List.mem_map.mpr ⟨other, member, same.trans isKey.symm⟩)
      constructor
      · intro member
        rcases List.mem_cons.mp member with rfl | later
        · exact .inl ⟨head, List.mem_cons_self, isKey, rfl⟩
        · exact .inr ⟨List.mem_cons_of_mem _ later, elsewhere row later⟩
      · rintro (⟨old, member, same, rfl⟩ | ⟨member, different⟩)
        · rcases List.mem_cons.mp member with rfl | later
          · exact List.mem_cons_self
          · exact absurd same (elsewhere old later)
        · rcases List.mem_cons.mp member with rfl | later
          · exact absurd isKey different
          · exact List.mem_cons_of_mem _ later
    · rename_i unfit
      have notKey : key head ≠ at_ := fun same => unfit ((selects head).mpr same)
      rw [List.mem_cons, ih others]
      constructor
      · rintro (rfl | ⟨old, member, same, rfl⟩ | ⟨member, different⟩)
        · exact .inr ⟨List.mem_cons_self, notKey⟩
        · exact .inl ⟨old, List.mem_cons_of_mem _ member, same, rfl⟩
        · exact .inr ⟨List.mem_cons_of_mem _ member, different⟩
      · rintro (⟨old, member, same, rfl⟩ | ⟨member, different⟩)
        · rcases List.mem_cons.mp member with rfl | later
          · exact absurd same notKey
          · exact .inr (.inl ⟨old, later, same, rfl⟩)
        · rcases List.mem_cons.mp member with rfl | later
          · exact .inl rfl
          · exact .inr (.inr ⟨later, different⟩)

section

variable {rows : List Row} (unique : Unique key rows) {new : Row}
  (selects : ∀ row, fits row = true ↔ key row = key new)
include unique selects

/-- After a change or a push, the key has a row, and the other rows are as before. -/
theorem mem_changeOrPush {row : Row}
    : row ∈ changeOrPush fits change new rows
      ↔ (∃ old ∈ rows, key old = key new ∧ row = change old)
        ∨ (row ∈ rows ∧ key row ≠ key new)
        ∨ (row = new ∧ ∀ old ∈ rows, key old ≠ key new) := by
  unfold changeOrPush
  split
  · rename_i present
    obtain ⟨old, member, fitting⟩ := List.any_eq_true.mp present
    have taken := (selects old).mp fitting
    rw [mem_changeFirst unique selects]
    constructor
    · rintro (changed | kept)
      · exact .inl changed
      · exact .inr (.inl kept)
    · rintro (changed | kept | ⟨_, absent⟩)
      · exact .inl changed
      · exact .inr kept
      · exact absurd taken (absent old member)
  · rename_i absent
    have free : ∀ old ∈ rows, key old ≠ key new := by
      intro old member same
      exact absent (List.any_eq_true.mpr ⟨old, member, (selects old).mpr same⟩)
    rw [List.mem_append, List.mem_singleton]
    constructor
    · rintro (kept | rfl)
      · exact .inr (.inl ⟨kept, free row kept⟩)
      · exact .inr (.inr ⟨rfl, free⟩)
    · rintro (⟨old, member, same, _⟩ | ⟨kept, _⟩ | ⟨rfl, _⟩)
      · exact absurd same (free old member)
      · exact .inl kept
      · exact .inr rfl

theorem Unique.changeOrPush (keeps : ∀ row, fits row = true → key (change row) = key row)
    : Unique key (changeOrPush fits change new rows) := by
  unfold Rows.changeOrPush
  split
  · exact unique.changeFirst keeps
  rename_i absent
  refine unique.push (fun row member same => absent ?_)
  exact List.any_eq_true.mpr ⟨row, member, (selects row).mpr same⟩

end

end Rows
