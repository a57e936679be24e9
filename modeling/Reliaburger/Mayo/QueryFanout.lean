import Mathlib.Data.List.Destutter
import Mathlib.Data.List.Sort

/-! The answers of several nodes to one metrics query, in order of time, with neighbours of one
time, name and labels taken for one.
-/

namespace Reliaburger

structure MetricsQueryRow (Value : Type) where
  timestamp : Nat
  metricName : String
  labels : String
  value : Value
deriving DecidableEq, Repr

namespace MetricsQueryRow

variable {Value : Type}

def key (row : MetricsQueryRow Value) : Nat × String × String :=
  (row.timestamp, row.metricName, row.labels)

/-- The sort is stable, and of neighbours with one key the first stays. -/
def mergeMetricsResults (sources : List (List (MetricsQueryRow Value)))
    : List (MetricsQueryRow Value) :=
  (sources.flatten.insertionSort (·.timestamp ≤ ·.timestamp)).destutter (·.key ≠ ·.key)

section

variable {Key : Type} [DecidableEq Key] {keys : List Key}

theorem destutter_ne_cons (first next : Key) (rest : List Key)
    : (first :: next :: rest).destutter (· ≠ ·)
      = if first = next then (next :: rest).destutter (· ≠ ·)
        else first :: (next :: rest).destutter (· ≠ ·) := by
  rw [List.destutter_cons_cons]
  by_cases same : first = next
  · rw [if_neg (not_not.mpr same), if_pos same, same, List.destutter_cons']
  · rw [if_pos same, if_neg same, List.destutter_cons']

theorem mem_destutter_ne {key : Key} : key ∈ keys.destutter (· ≠ ·) ↔ key ∈ keys := by
  induction keys with
  | nil => simp
  | cons first rest ih =>
    cases rest with
    | nil => simp
    | cons next rest =>
      rw [destutter_ne_cons]
      split_ifs with same
      · simp [ih, same]
      · rw [List.mem_cons, ih, ← List.mem_cons]

/-- Neighbours taken for one leave each key once just when no key comes back after another, by
induction on the keys. -/
theorem nodup_destutter_ne
    : (keys.destutter (· ≠ ·)).Nodup
      ↔ ∀ key other, [key, other, key].Sublist keys → other = key := by
  induction keys with
  | nil => simp
  | cons first rest ih =>
    cases rest with
    | nil => simp [List.sublist_cons_iff]
    | cons next rest =>
      rw [destutter_ne_cons]
      split_ifs with same
      · rw [ih, same]
        refine ⟨fun once key other back => ?_,
          fun once key other back => once key other (back.cons _)⟩
        rcases List.cons_sublist_cons'.mp back with later | ⟨rfl, later⟩
        · exact once key other later
        rcases List.cons_sublist_cons'.mp later with later | ⟨rfl, _⟩
        · exact once key other (later.cons_cons key)
        · rfl
      · rw [List.nodup_cons, mem_destutter_ne, ih]
        refine ⟨fun ⟨absent, once⟩ key other back => ?_, fun once => ⟨fun later => same ?_,
          fun key other back => once key other (back.cons _)⟩⟩
        · rcases List.cons_sublist_cons'.mp back with later | ⟨rfl, later⟩
          · exact once key other later
          · exact absurd (later.subset (by simp)) absent
        · rcases List.mem_cons.mp later with same | later
          · exact same
          · exact (once first next (by simpa using later)).symm

end

/-- Rows of one time come in the same order before and after the sort. -/
theorem sublist_sorted {rows chosen : List (MetricsQueryRow Value)} (time : Nat)
    (together : ∀ row ∈ chosen, row.timestamp = time)
    : chosen.Sublist (rows.insertionSort (·.timestamp ≤ ·.timestamp)) ↔ chosen.Sublist rows := by
  have ordered {some : List (MetricsQueryRow Value)} (same : ∀ row ∈ some, row.timestamp = time)
      : some.Pairwise (·.timestamp ≤ ·.timestamp) :=
    List.pairwise_of_forall_mem_list fun row here other there =>
      ((same row here).trans (same other there).symm).le
  refine ⟨fun inside => ?_, List.sublist_insertionSort (ordered together)⟩
  have kept := List.sublist_insertionSort (r := (·.timestamp ≤ ·.timestamp))
    (ordered fun row listed => by simpa using (List.mem_filter.mp listed).2)
    (List.filter_sublist (p := (·.timestamp = time)) (l := rows))
  have stable := (kept.filter (·.timestamp = time)).eq_of_length (by
    rw [List.filter_filter]
    simpa using ((List.perm_insertionSort _ rows).filter _).length_eq.symm)
  have chosenOnly := inside.filter (·.timestamp = time)
  rw [← stable, List.filter_eq_self.mpr (by simpa using together)] at chosenOnly
  exact chosenOnly.trans (List.filter_sublist.trans List.filter_sublist)

/-- Merged rows come in order of time, from the sources, and miss no key. Each key comes once just
when no two rows of one key have a row of their time and of another key between them. -/
theorem merged_rows_unique_iff (sources : List (List (MetricsQueryRow Value)))
    : (mergeMetricsResults sources).Pairwise (·.timestamp ≤ ·.timestamp)
      ∧ (∀ row ∈ mergeMetricsResults sources, ∃ source ∈ sources, row ∈ source)
      ∧ (∀ source ∈ sources, ∀ row ∈ source,
        ∃ kept ∈ mergeMetricsResults sources, kept.key = row.key)
      ∧ (((mergeMetricsResults sources).map key).Nodup
        ↔ ∀ row between again, [row, between, again].Sublist sources.flatten
          → row.key = again.key → between.timestamp = row.timestamp → between.key = row.key) := by
  let sorted := sources.flatten.insertionSort (·.timestamp ≤ ·.timestamp)
  have ordered : sorted.Pairwise (·.timestamp ≤ ·.timestamp) := List.pairwise_insertionSort _ _
  have listed {row} : row ∈ sorted ↔ ∃ source ∈ sources, row ∈ source := by
    rw [List.mem_insertionSort, List.mem_flatten]
  have keys : (mergeMetricsResults sources).map key = (sorted.map key).destutter (· ≠ ·) :=
    List.map_destutter fun _ _ _ _ => Iff.rfl
  refine ⟨ordered.sublist (List.destutter_sublist _ _), fun row kept => listed.mp
    ((List.destutter_sublist _ _).subset kept), fun source member row inside => ?_, ?_⟩
  · have key : row.key ∈ (mergeMetricsResults sources).map key := by
      rw [keys, mem_destutter_ne]
      exact List.mem_map_of_mem (listed.mpr ⟨source, member, inside⟩)
    exact List.mem_map.mp key
  · rw [keys, nodup_destutter_ne]
    constructor
    · intro once row between again found same meanwhile
      have back := (sublist_sorted row.timestamp
        (by simp [meanwhile, (Prod.mk.inj same).1])).mpr found
      exact once row.key between.key (by simpa [← same] using back.map key)
    intro once _ _ back
    obtain ⟨chosen, inside, isChosen⟩ := List.sublist_map_iff.mp back
    obtain ⟨row, between, again, rfl⟩ :=
      List.length_eq_three.mp (by simpa using (congrArg List.length isChosen).symm)
    simp only [List.map_cons, List.map_nil, List.cons.injEq, and_true] at isChosen
    obtain ⟨rfl, rfl, same⟩ := isChosen
    have times := ordered.sublist inside
    have closes := (Prod.mk.inj same).1
    simp only [List.pairwise_cons, List.mem_cons, forall_eq_or_imp] at times
    have meanwhile : between.timestamp = row.timestamp := by omega
    refine once row between again ((sublist_sorted row.timestamp ?_).mp inside)
      same meanwhile
    simp [meanwhile, closes]

/-- Two nodes report the same two series of one minute: the second node's row of the first series is
kept again. -/
theorem interleaved_series_repeated
    : ¬ ∀ sources : List (List (MetricsQueryRow Nat)),
        ((mergeMetricsResults sources).map key).Nodup := by
  intro once
  have twice := once [[⟨60, "cpu", "", 1⟩, ⟨60, "memory", "", 2⟩],
    [⟨60, "cpu", "", 1⟩, ⟨60, "memory", "", 2⟩]]
  exact absurd twice (by decide)

end MetricsQueryRow

end Reliaburger
