import Mathlib

/-! Ordered finite maps and sets: how their entries change under one insertion or removal, and the
counts and sums over entries that follow from it.
-/

/-- A finite map whose entries are listed in the order of their keys. -/
abbrev BTreeMap (Key Value : Type) [Ord Key] : Type :=
  Std.ExtTreeMap Key Value compare

abbrev BTreeSet (Key : Type) [Ord Key] : Type :=
  Std.ExtTreeSet Key compare

namespace BTreeMap

open Std ExtTreeMap

variable {Key Value : Type} [Ord Key] [TransOrd Key]

/-- How many entries of a map satisfy a test. -/
def count (p : Key → Value → Bool) (map : BTreeMap Key Value) : Nat :=
  map.toList.countP (fun entry => p entry.1 entry.2)

/-- The sum of a weight over the entries of a map. -/
def total (f : Key → Value → Nat) (map : BTreeMap Key Value) : Nat :=
  (map.toList.map (fun entry => f entry.1 entry.2)).sum

def valueList (map : BTreeMap Key Value) : List Value :=
  map.toList.map Prod.snd

-- Lookups

variable {map : BTreeMap Key Value} {other : Key}

variable {key : Key}

theorem mem_iff
    : key ∈ map ↔ ∃ value, map[key]? = some value := by
  rw [mem_iff_isSome_getElem?, Option.isSome_iff_exists]

theorem not_mem_iff
    : key ∉ map ↔ map[key]? = none := by
  rw [mem_iff_isSome_getElem?]
  simp

theorem contains_iff
    : map.contains key = true ↔ ∃ value, map[key]? = some value :=
  ExtTreeMap.mem_iff_contains.symm.trans mem_iff

/-- No key is listed twice. -/
theorem nodup_keys_toList (map : BTreeMap Key Value) : (map.toList.map Prod.fst).Nodup := by
  rw [map_fst_toList_eq_keys]
  exact nodup_keys

theorem nodup_toList (map : BTreeMap Key Value) : map.toList.Nodup :=
  (nodup_keys_toList map).of_map _

theorem size_eq_count (map : BTreeMap Key Value)
    : map.size = count (fun _ _ => true) map := by
  rw [count, ← length_toList]
  simp

@[simp] theorem total_empty (f : Key → Value → Nat)
    : total f (∅ : BTreeMap Key Value) = 0 := by
  have none : (∅ : BTreeMap Key Value).toList = [] := by simp
  simp [total, none]

variable [LawfulEqOrd Key]

/-- An insertion is found under its key, and leaves the other keys as they are. -/
theorem get_insert [DecidableEq Key] (map : BTreeMap Key Value) (key other : Key)
    (value : Value)
    : (map.insert key value)[other]? = if key = other then some value else map[other]? := by
  simp only [ExtTreeMap.getElem?_insert, Std.compare_eq_iff_eq]

theorem get_insert_self (map : BTreeMap Key Value) (key : Key) (value : Value)
    : (map.insert key value)[key]? = some value := by
  simp

theorem get_insert_ne (map : BTreeMap Key Value) (value : Value)
    (different : key ≠ other)
    : (map.insert key value)[other]? = map[other]? := by
  simp [ExtTreeMap.getElem?_insert, different]

/-- An erased key finds nothing, and the other keys what they found. -/
theorem get_erase [DecidableEq Key] (map : BTreeMap Key Value) (key other : Key)
    : (map.erase key)[other]? = if key = other then none else map[other]? := by
  simp only [ExtTreeMap.getElem?_erase, Std.compare_eq_iff_eq]

theorem get_erase_self (map : BTreeMap Key Value) (key : Key)
    : (map.erase key)[key]? = none := by
  simp

theorem get_erase_ne (map : BTreeMap Key Value) (different : key ≠ other)
    : (map.erase key)[other]? = map[other]? := by
  simp [ExtTreeMap.getElem?_erase, different]

variable {value : Value}

theorem mem_insert
    : other ∈ map.insert key value ↔ other = key ∨ other ∈ map := by
  rw [Std.ExtTreeMap.mem_insert, Std.compare_eq_iff_eq, @eq_comm _ key]

theorem mem_erase
    : other ∈ map.erase key ↔ other ≠ key ∧ other ∈ map := by
  rw [Std.ExtTreeMap.mem_erase, ne_eq, Std.compare_eq_iff_eq, @eq_comm _ key]

/-- What a map holds after an insertion is the new value or was there before. -/
theorem get_insert_cases {held : Value} (found : (map.insert key value)[other]? = some held)
    : (key = other ∧ value = held) ∨ map[other]? = some held := by
  by_cases same : key = other
  · subst same
    rw [get_insert_self] at found
    exact .inl ⟨rfl, Option.some.inj found⟩
  · exact .inr (get_insert_ne map value same ▸ found)

/-- A filtered map has the values that pass. -/
theorem get_filter (map : BTreeMap Key Value) (keep : Key → Value → Bool) (key : Key)
    : (map.filter keep)[key]? = map[key]?.filter (keep key) :=
  ExtTreeMap.getElem?_filter'

theorem mem_filter_keys {keep : Key → Bool}
    : key ∈ map.filter (fun key _ => keep key) ↔ key ∈ map ∧ keep key = true := by
  rw [mem_iff, mem_iff, get_filter]
  cases map[key]? <;> simp [Option.filter]

theorem erase_eq_self (absent : map[key]? = none)
    : map.erase key = map := by
  classical
  apply ext_getElem?
  intro other
  rw [get_erase]
  split
  · rename_i same
    rw [← same, absent]
  · rfl

theorem insert_eq_self (found : map[key]? = some value)
    : map.insert key value = map := by
  classical
  apply ext_getElem?
  intro other
  rw [get_insert]
  split
  · rename_i same
    rw [← same, found]
  · rfl

-- Entries

/-- The entries of a map are listed, and nothing else. -/
theorem mem_toList
    : (key, value) ∈ map.toList ↔ map[key]? = some value :=
  mem_toList_iff_getElem?_eq_some

@[simp] theorem mem_valueList
    : value ∈ map.valueList ↔ ∃ key : Key, map[key]? = some value := by
  simp only [valueList, List.mem_map, Prod.exists, exists_eq_right, mem_toList]

/-- Maps with the same lookups at renamed keys list the same values, in some order. -/
theorem toList_perm {entries : List (Key × Value)} (nodup : entries.Nodup)
    (same : ∀ key value, (key, value) ∈ entries ↔ map[key]? = some value)
    : map.toList.Perm entries := by
  apply (List.perm_ext_iff_of_nodup (nodup_toList map) nodup).mpr
  rintro ⟨_, _⟩
  rw [mem_toList, same]

/-- An entry that is present can be listed first. -/
theorem toList_perm_of_get (found : map[key]? = some value)
    : map.toList.Perm ((key, value) :: (map.erase key).toList) := by
  classical
  apply toList_perm
  · refine List.nodup_cons.mpr ⟨?_, nodup_toList _⟩
    rw [mem_toList, get_erase_self]
    simp
  · intro other otherValue
    rw [List.mem_cons, mem_toList, get_erase, Prod.mk.injEq]
    by_cases same : key = other
    · subst same
      simp [found, eq_comm]
    · simp [same, Ne.symm same]

/-- An inserted entry can be listed first, before the other entries. -/
theorem toList_insert_perm (map : BTreeMap Key Value) (key : Key) (value : Value)
    : (map.insert key value).toList.Perm ((key, value) :: (map.erase key).toList) := by
  have erased : (map.insert key value).erase key = map.erase key := by
    classical
    apply ext_getElem?
    intro other
    rw [get_erase, get_erase]
    split
    · rfl
    · rw [get_insert_ne _ _ ‹_›]
  have perm := toList_perm_of_get (get_insert_self map key value)
  rwa [erased] at perm

-- Counts and sums

/-- An insertion counts its own entry beside those of the other keys. -/
theorem count_insert (p : Key → Value → Bool) (map : BTreeMap Key Value) (key : Key)
    (value : Value)
    : count p (map.insert key value)
      = count p (map.erase key) + if p key value then 1 else 0 := by
  rw [count, (toList_insert_perm map key value).countP_eq, List.countP_cons, count]

/-- An insertion weighs its own entry beside those of the other keys. -/
theorem total_insert (f : Key → Value → Nat) (map : BTreeMap Key Value) (key : Key)
    (value : Value)
    : total f (map.insert key value) = f key value + total f (map.erase key) := by
  rw [total, ((toList_insert_perm map key value).map _).sum_eq, List.map_cons, List.sum_cons, total]

/-- The total splits off the entry of a key. -/
theorem total_of_get (f : Key → Value → Nat)
    (found : map[key]? = some value)
    : total f map = f key value + total f (map.erase key) := by
  rw [total, ((toList_perm_of_get found).map _).sum_eq, List.map_cons, List.sum_cons, total]

/-- A count can only shrink when every counted entry was counted before, under its key. -/
theorem count_le_count {Other : Type} {p : Key → Value → Bool} {q : Key → Other → Bool}
    {other : BTreeMap Key Other} (kept : ∀ key value,
        map[key]? = some value
        → p key value = true
        → ∃ value', other[key]? = some value' ∧ q key value' = true)
    : count p map ≤ count q other := by
  have keys : ((map.toList.filter (fun e => p e.1 e.2)).map Prod.fst).Subset
      ((other.toList.filter (fun e => q e.1 e.2)).map Prod.fst) := by
    intro key member
    obtain ⟨⟨key', value⟩, kept', rfl⟩ := List.mem_map.mp member
    obtain ⟨listed, counted⟩ := List.mem_filter.mp kept'
    obtain ⟨value', found, counted'⟩ := kept key' value (mem_toList.mp listed) counted
    exact List.mem_map.mpr
      ⟨(key', value'), List.mem_filter.mpr ⟨mem_toList.mpr found, counted'⟩, rfl⟩
  have nodup : ((map.toList.filter (fun e => p e.1 e.2)).map Prod.fst).Nodup :=
    (nodup_keys_toList map).sublist (List.filter_sublist.map _)
  have bound := (List.subperm_of_subset nodup keys).length_le
  simpa only [List.length_map, count, List.countP_eq_length_filter] using bound

theorem size_insert_of_absent (value : Value) (absent : map[key]? = none)
    : (map.insert key value).size = map.size + 1 := by
  rw [size_eq_count, size_eq_count, count_insert, erase_eq_self absent]
  simp

-- Entries inserted one after the other

section

variable {Item : Type} {key : Item → Key} {value : Item → Value}

/-- Insertions of other keys leave a key as it is, by induction on the items. -/
theorem get_foldl_insert_of_absent {items : List Item} {other : Key}
    (absent : ∀ item ∈ items, key item ≠ other) (map : BTreeMap Key Value)
    : (items.foldl (fun map item => map.insert (key item) (value item)) map)[other]?
      = map[other]? := by
  induction items generalizing map with
  | nil => rfl
  | cons item rest ih =>
    rw [List.foldl_cons, ih (List.forall_mem_cons.mp absent).2,
      get_insert_ne _ _ (absent item List.mem_cons_self)]

/-- The last item with a key gives its value. -/
theorem get_foldl_insert_of_mem {items : List Item} {other : Key}
    (present : ∃ item ∈ items, key item = other) (map : BTreeMap Key Value)
    : ∃ item ∈ items, key item = other
        ∧ (items.foldl (fun map item => map.insert (key item) (value item)) map)[other]?
          = some (value item) := by
  classical
  induction items generalizing map with
  | nil => simp at present
  | cons item rest ih =>
    by_cases later : ∃ item ∈ rest, key item = other
    · obtain ⟨last, listed, same, found⟩ := ih later (map.insert (key item) (value item))
      exact ⟨last, List.mem_cons_of_mem _ listed, same, found⟩
    push Not at later
    obtain ⟨first, listed, same⟩ := present
    obtain rfl : first = item := by
      rcases List.mem_cons.mp listed with eq | inRest
      · exact eq
      · exact absurd same (later first inRest)
    refine ⟨first, List.mem_cons_self, same, ?_⟩
    rw [List.foldl_cons, get_foldl_insert_of_absent later, ← same, get_insert_self]

end

end BTreeMap

namespace BTreeMap

open Std

variable {Key Value Item Entry : Type}

/-- Entries with distinct keys weigh at most as much as the items found for them. -/
theorem sum_le_sum_of_items {entries : List Entry} {items : List Item}
    {entryKey : Entry → Key} (itemKey : Item → Key) {weight : Entry → Nat} {cost : Item → Nat}
    (nodup : (entries.map entryKey).Nodup)
    (each : ∀ entry ∈ entries, weight entry = 0
      ∨ ∃ item ∈ items, itemKey item = entryKey entry ∧ weight entry ≤ cost item)
    : (entries.map weight).sum ≤ (items.map cost).sum := by
  induction entries generalizing items with
  | nil => exact Nat.zero_le _
  | cons first rest ih =>
    obtain ⟨fresh, nodup⟩ := List.nodup_cons.mp nodup
    have later := (List.forall_mem_cons.mp each).2
    rw [List.map_cons, List.sum_cons]
    rcases each first List.mem_cons_self with none | ⟨item, listed, same, _⟩
    · rw [none, Nat.zero_add]
      exact ih nodup later
    -- The item of the first entry serves no other, as their keys differ.
    obtain ⟨before, after, rfl⟩ := List.append_of_mem listed
    have others : (rest.map weight).sum ≤ ((before ++ after).map cost).sum := by
      refine ih nodup fun entry among => ?_
      rcases later entry among with none | ⟨other, found, sameOther, boundedOther⟩
      · exact .inl none
      refine .inr ⟨other, ?_, sameOther, boundedOther⟩
      rw [List.mem_append, List.mem_cons] at found
      rcases found with left | rfl | right
      · exact List.mem_append_left _ left
      · rw [same] at sameOther
        exact absurd (sameOther ▸ List.mem_map_of_mem among) fresh
      · exact List.mem_append_right _ right
    simp only [List.map_append, List.sum_append, List.map_cons, List.sum_cons] at others ⊢
    omega

/-- A total is at most the cost of items that cover every entry with a weight. -/
theorem total_le_sum_of_items [Ord Key] [TransOrd Key] [LawfulEqOrd Key]
    {map : BTreeMap Key Value} {items : List Item} (itemKey : Item → Key) {f : Key → Value → Nat}
    {cost : Item → Nat}
    (each : ∀ key value, map[key]? = some value → f key value = 0
      ∨ ∃ item ∈ items, itemKey item = key ∧ f key value ≤ cost item)
    : total f map ≤ (items.map cost).sum := by
  refine sum_le_sum_of_items itemKey (nodup_keys_toList map) ?_
  rintro ⟨key, value⟩ listed
  exact each key value (mem_toList.mp listed)

end BTreeMap

namespace BTreeSet

open Std ExtTreeSet

variable {Key : Type} [Ord Key] [TransOrd Key]

def count (p : Key → Bool) (set : BTreeSet Key) : Nat :=
  set.toList.countP p

def ofItems (items : List Key) : BTreeSet Key :=
  items.foldl (fun set item => set.insert item) ∅

theorem size_eq_length (set : BTreeSet Key) : set.size = set.toList.length :=
  length_toList.symm

variable [LawfulEqOrd Key]

variable {set : BTreeSet Key}

theorem mem_filter {keep : Key → Bool} {key : Key}
    : key ∈ ExtTreeSet.filter keep set ↔ key ∈ set ∧ keep key = true := by
  rw [ExtTreeSet.mem_filter]
  constructor
  · rintro ⟨member, kept⟩
    rw [ExtTreeSet.get_eq] at kept
    exact ⟨member, kept⟩
  · rintro ⟨member, _⟩
    exact ⟨member, by rwa [ExtTreeSet.get_eq]⟩

theorem mem_insert {key other : Key}
    : other ∈ set.insert key ↔ key = other ∨ other ∈ set := by
  rw [ExtTreeSet.mem_insert, Std.compare_eq_iff_eq]

theorem mem_erase {key other : Key}
    : other ∈ set.erase key ↔ other ≠ key ∧ other ∈ set := by
  rw [Std.ExtTreeSet.mem_erase, ne_eq, Std.compare_eq_iff_eq, @eq_comm _ key]

/-- No key of a set is listed twice. -/
theorem nodup_toList (set : BTreeSet Key) : set.toList.Nodup :=
  Std.ExtTreeSet.distinct_toList.imp fun distinct same =>
    distinct (compare_eq_iff_eq.mpr same)

/-- Inserting a list adds its items, by induction on the list. -/
theorem mem_foldl_insert {items : List Key} {key : Key}
    : key ∈ items.foldl (fun set item => set.insert item) set ↔ key ∈ items ∨ key ∈ set := by
  induction items generalizing set with
  | nil => simp
  | cons item rest ih =>
    rw [List.foldl_cons, ih, mem_insert, List.mem_cons, @eq_comm _ item]
    tauto

variable {key : Key}

theorem count_congr {p q : Key → Bool} (same : ∀ key ∈ set, p key = q key)
    : count p set = count q set :=
  List.countP_congr fun key listed => by rw [same key (mem_toList.mp listed)]

theorem mem_ofItems {items : List Key}
    : key ∈ ofItems items ↔ key ∈ items := by
  rw [ofItems, mem_foldl_insert]
  simp

/-- Sets with the same members as a list without repeats are listed in some order of it. -/
theorem toList_perm {items : List Key} (nodup : items.Nodup) (same : ∀ key, key ∈ items ↔ key ∈ set)
    : set.toList.Perm items := by
  apply (List.perm_ext_iff_of_nodup (nodup_toList set) nodup).mpr
  intro key
  rw [mem_toList, same]

/-- A set lists a member beside those of the set without it. -/
theorem toList_erase_perm (member : key ∈ set)
    : set.toList.Perm (key :: (set.erase key).toList) := by
  apply toList_perm
  · refine List.nodup_cons.mpr ⟨?_, nodup_toList _⟩
    rw [mem_toList, mem_erase]
    simp
  intro other
  rw [List.mem_cons, mem_toList, mem_erase]
  constructor
  · rintro (rfl | ⟨_, listed⟩)
    · exact member
    · exact listed
  · intro listed
    exact (eq_or_ne other key).imp_right fun different => ⟨different, listed⟩

theorem size_erase_member (member : key ∈ set)
    : (set.erase key).size + 1 = set.size := by
  rw [size_eq_length, size_eq_length, (toList_erase_perm member).length_eq, List.length_cons]

theorem count_erase_member (p : Key → Bool) (member : key ∈ set)
    : count p (set.erase key) + (if p key then 1 else 0) = count p set := by
  rw [count, count, (toList_erase_perm member).countP_eq p, List.countP_cons]

end BTreeSet
