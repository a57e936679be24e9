import Reliaburger.Store.Progress

/-! What pruning can remove: only finished arrays that no unsettled deployment pins, and
manifests whose profiles have all finished, together with those profiles.
-/

namespace Reliaburger

open BTreeMap

namespace Retention

theorem larger_cases (best : Option (String × List Dropped)) (entry : String × List Dropped)
    : larger best entry = some entry ∨ larger best entry = best := by
  unfold larger
  split
  · exact .inl rfl
  split
  · exact .inl rfl
  · exact .inr rfl

/-- Whatever is largest is one of the entries, by induction on the entries seen so far. -/
theorem largest_mem {kept : Kept} {entry : String × List Dropped}
    (found : largest kept = some entry)
    : kept[entry.1]? = some entry.2 := by
  have scan : ∀ (entries : List (String × List Dropped)) (best : Option (String × List Dropped)),
      entries.foldl larger best = some entry → entry ∈ entries ∨ best = some entry := by
    intro entries
    induction entries with
    | nil => exact fun best isBest => .inr isBest
    | cons head rest ih =>
      intro best isBest
      rcases ih (larger best head) isBest with member | here
      · exact .inl (List.mem_cons_of_mem _ member)
      rcases larger_cases best head with new | old
      · rw [new] at here
        cases here
        exact .inl List.mem_cons_self
      · exact .inr (old ▸ here)
  rcases scan _ none found with member | impossible
  · exact mem_toList.mp member
  · cases impossible

variable {dropped : Dropped}

theorem evictLargest_sound (rounds : Nat) (kept : Kept)
    (evicted : dropped ∈ evictLargest rounds kept)
    : ∃ (ns : String) (units : List Dropped), kept[ns]? = some units ∧ dropped ∈ units := by
  induction rounds generalizing kept with
  | zero => cases evicted
  | succ rounds ih =>
    simp only [evictLargest] at evicted
    split at evicted
    · cases evicted
    rename_i ns units found
    have entry := largest_mem found
    rcases List.mem_append.mp evicted with head | later
    · refine ⟨ns, units, entry, ?_⟩
      cases units with
      | nil => cases head
      | cons first rest =>
        simp only [List.head?_cons, Option.toList_some, List.mem_singleton] at head
        exact head ▸ List.mem_cons_self
    · obtain ⟨ns', units', entry', member⟩ := ih _ later
      rcases get_insert_cases entry' with ⟨rfl, rfl⟩ | before
      · exact ⟨ns, units, entry, List.mem_of_mem_tail member⟩
      · exact ⟨ns', units', before, member⟩

theorem enqueue_sound (terminal : List RetentionUnit) (kept : Kept) {ns : String}
    {units : List Dropped} (entry : (terminal.foldl enqueue kept)[ns]? = some units)
    (member : dropped ∈ units)
    : (∃ before, kept[ns]? = some before ∧ dropped ∈ before)
      ∨ ∃ unit ∈ terminal, unit.dropped = dropped := by
  induction terminal generalizing kept with
  | nil => exact .inl ⟨units, entry, member⟩
  | cons head rest ih =>
    rcases ih (enqueue kept head) entry with ⟨before, found, queued⟩ | ⟨unit, listed, same⟩
    · rcases get_insert_cases found with ⟨rfl, rfl⟩ | found
      · rcases List.mem_append.mp queued with old | new
        · cases prior : kept[head.ns]? with
          | none => simp [prior] at old
          | some before =>
            rw [prior, Option.getD_some] at old
            exact .inl ⟨before, rfl, old⟩
        · exact .inr ⟨head, List.mem_cons_self, (List.mem_singleton.mp new).symm⟩
      · exact .inl ⟨before, found, queued⟩
    · exact .inr ⟨unit, List.mem_cons_of_mem _ listed, same⟩

/-- Only finished units are evicted. -/
theorem retentionEvictions_sound {terminal : List RetentionUnit} {now retention : Nat}
    (evicted : dropped ∈ retentionEvictions terminal now retention)
    : ∃ unit ∈ terminal, unit.dropped = dropped := by
  have queued : ∀ {ns : String} {units : List Dropped},
      ((terminal.filter (fun unit => !decide (now - unit.finishedAt > retention))).foldl
        enqueue (∅ : Kept))[ns]? = some units
      → dropped ∈ units → ∃ unit ∈ terminal, unit.dropped = dropped := by
    intro ns units entry member
    rcases enqueue_sound _ _ entry member with ⟨_, found, _⟩ | ⟨unit, listed, same⟩
    · simp at found
    · exact ⟨unit, (List.mem_filter.mp listed).1, same⟩
  simp only [retentionEvictions, List.mem_append] at evicted
  rcases evicted with (aged | crowded) | surplus
  · obtain ⟨unit, listed, same⟩ := List.mem_map.mp aged
    exact ⟨unit, (List.mem_filter.mp listed).1, same⟩
  · obtain ⟨⟨_, _⟩, listed, member⟩ := List.mem_flatMap.mp crowded
    exact queued (mem_toList.mp listed) (List.mem_of_mem_take member)
  · obtain ⟨_, _, entry, member⟩ := evictLargest_sound _ _ surplus
    rw [Std.ExtTreeMap.getElem?_map] at entry
    obtain ⟨_, found, rfl⟩ := Option.map_eq_some_iff.mp entry
    exact queued found (List.mem_of_mem_drop member)

end Retention

namespace TaskArrays

variable {id : Nat} {record : TaskArrayRecord}

variable {store : TaskArrays}

theorem mem_children
    : id ∈ store.children
      ↔ ∃ (parent : Nat) (manifest : TaskManifest),
          store.manifests[parent]? = some manifest ∧ id ∈ manifest.cohorts.map Prod.snd := by
  simp only [children, List.mem_flatMap, Prod.exists, mem_toList]

def Finished (store : TaskArrays) (id : Nat) : Prop :=
  ∃ record time, store.arrays[id]? = some record ∧ record.terminalAtEpochSecs = some time

theorem finishedAt_some {cohorts : List (String × Nat)} {time : Nat}
    (finished : store.finishedAt cohorts = some time)
    : ∀ cohort ∈ cohorts, store.Finished cohort.2 := by
  obtain ⟨times, found, atTime⟩ := Option.map_eq_some_iff.mp finished
  clear finished atTime
  induction cohorts generalizing times with
  | nil => simp
  | cons head rest ih =>
    simp only [List.mapM_cons, Option.bind_eq_bind, Option.bind_eq_some_iff] at found
    obtain ⟨first, ⟨record, present, receipt⟩, later, others, _⟩ := found
    intro cohort member
    rcases List.mem_cons.mp member with rfl | further
    · exact ⟨record, first, present, receipt⟩
    · exact ih later others cohort further

/-- A unit to drop is a finished array that nothing holds on to, or a manifest whose profiles
have all finished. -/
theorem expired_sound {now retention : Nat} {unit : Dropped}
    (dropped : unit ∈ store.expired now retention)
    : (unit.2 = true
        ∧ ∃ manifest,
            store.manifests[unit.1]? = some manifest
            ∧ ∀ cohort ∈ manifest.cohorts, store.Finished cohort.2)
      ∨ (unit.2 = false
        ∧ store.Finished unit.1
        ∧ unit.1 ∉ store.children
        ∧ unit.1 ∉ store.pinned) := by
  obtain ⟨_, listed, rfl⟩ := Retention.retentionEvictions_sound dropped
  rw [(List.perm_insertionSort _ _).mem_iff, List.mem_append] at listed
  rcases listed with parent | array
  · obtain ⟨⟨_, manifest⟩, entry, isUnit⟩ := List.mem_filterMap.mp parent
    obtain ⟨time, finished, rfl⟩ := Option.map_eq_some_iff.mp isUnit
    exact .inl ⟨rfl, manifest, mem_toList.mp entry, finishedAt_some finished⟩
  obtain ⟨⟨_, record⟩, entry, isUnit⟩ := List.mem_filterMap.mp array
  simp only at isUnit
  split at isUnit
  · cases isUnit
  rename_i free
  obtain ⟨time, receipt, rfl⟩ := Option.map_eq_some_iff.mp isUnit
  simp only [Bool.or_eq_true, List.contains_iff_mem, not_or] at free
  exact .inr ⟨rfl, ⟨record, time, mem_toList.mp entry, receipt⟩, free.1, free.2⟩

-- Evictions

theorem get_eraseAll (cohorts : List (String × Nat)) (arrays : BTreeMap Nat TaskArrayRecord)
    (id : Nat)
    : (cohorts.foldl (fun arrays cohort => arrays.erase cohort.2) arrays)[id]?
      = if id ∈ cohorts.map Prod.snd then none else arrays[id]? := by
  induction cohorts generalizing arrays with
  | nil => simp
  | cons head rest ih =>
    rw [List.foldl_cons, ih, get_erase]
    by_cases here : head.2 = id
    · simp [here]
    · simp only [here, if_false, List.map_cons, List.mem_cons, Ne.symm here, false_or]

/-- How one eviction changes the store: only arrays and manifests, only by removal. -/
structure Shrinks (store next : TaskArrays) : Prop where
  jobs : next.jobs = store.jobs
  cron : next.cronObservedMinute = store.cronObservedMinute
  deployments : next.deployments = store.deployments
  arrays : ∀ {id : Nat} {record : TaskArrayRecord},
    next.arrays[id]? = some record → store.arrays[id]? = some record
  manifests : ∀ {id : Nat} {manifest : TaskManifest},
    next.manifests[id]? = some manifest → store.manifests[id]? = some manifest

theorem evict_shrinks (store : TaskArrays) (unit : Dropped)
    : Shrinks store (store.evict unit) := by
  unfold evict
  split
  · split
    · exact ⟨rfl, rfl, rfl, id, id⟩
    refine ⟨rfl, rfl, rfl, ?_, ?_⟩
    · intro id record present
      simp only [get_eraseAll] at present
      split at present
      · cases present
      · exact present
    · intro id other present
      simp only [get_erase] at present
      split at present
      · cases present
      · exact present
  · refine ⟨rfl, rfl, rfl, ?_, id⟩
    intro id record present
    simp only [get_erase] at present
    split at present
    · cases present
    · exact present

theorem evictAll_shrinks (units : List Dropped) (store : TaskArrays)
    : Shrinks store (units.foldl evict store) := by
  induction units generalizing store with
  | nil => exact ⟨rfl, rfl, rfl, id, id⟩
  | cons unit rest ih =>
    have first := evict_shrinks store unit
    have later := ih (store.evict unit)
    exact ⟨later.jobs.trans first.jobs, later.cron.trans first.cron, later.deployments.trans
      first.deployments, fun present => first.arrays (later.arrays present), fun present =>
      first.manifests (later.manifests present)⟩

/-- An array that is gone was dropped itself, or with a manifest that it belonged to. -/
theorem evictAll_array (units : List Dropped) (store : TaskArrays)
    (present : store.arrays[id]? = some record)
    (gone : (units.foldl evict store).arrays[id]? = none)
    : (id, false) ∈ units
      ∨ ∃ parent manifest,
          (parent, true) ∈ units
          ∧ store.manifests[parent]? = some manifest
          ∧ id ∈ manifest.cohorts.map Prod.snd := by
  induction units generalizing store with
  | nil => simp [present] at gone
  | cons unit rest ih =>
    rw [List.foldl_cons] at gone
    obtain ⟨other, parent⟩ := unit
    by_cases still : (store.evict (other, parent)).arrays[id]? = some record
    · rcases ih (store.evict (other, parent)) still gone with
        later | ⟨up, manifest, listed, found, child⟩
      · exact .inl (List.mem_cons_of_mem _ later)
      · exact .inr ⟨up, manifest, List.mem_cons_of_mem _ listed,
          (evict_shrinks store _).manifests found, child⟩
    cases parent with
    | false =>
      have same : other = id := by
        by_contra different
        exact still (by simp [evict, get_erase, different, present])
      exact .inl (same ▸ List.mem_cons_self)
    | true =>
      simp only [evict, if_true] at still
      split at still
      · exact absurd present still
      rename_i manifest found
      refine .inr ⟨other, manifest, List.mem_cons_self, found, ?_⟩
      by_contra outside
      exact still (by simp only [get_eraseAll, if_neg outside]; exact present)

-- Pruning

variable (store : TaskArrays) (now retention : Nat)

@[simp] theorem pruneWithin_deployments
    : (store.pruneWithin now retention).deployments = store.deployments :=
  (evictAll_shrinks _ store).deployments

@[simp] theorem pruneWithin_cronObservedMinute
    : (store.pruneWithin now retention).cronObservedMinute = store.cronObservedMinute :=
  (evictAll_shrinks _ store).cron

theorem pruneWithin_arrays (present : (store.pruneWithin now retention).arrays[id]? = some record)
    : store.arrays[id]? = some record :=
  (evictAll_shrinks _ store).arrays present

theorem pruneWithin_manifests {manifest : TaskManifest}
    (present : (store.pruneWithin now retention).manifests[id]? = some manifest)
    : store.manifests[id]? = some manifest :=
  (evictAll_shrinks _ store).manifests present

/-- Pruning keeps the provenance of exactly the runs whose array it keeps. -/
theorem pruneWithin_runs {run : RunRecord}
    : (store.pruneWithin now retention).jobs.runs[id]? = some run
      ↔ store.jobs.runs[id]? = some run
        ∧ ∃ record, (store.pruneWithin now retention).arrays[id]? = some record := by
  have jobs := (evictAll_shrinks (store.expired now retention) store).jobs
  simp only [pruneWithin, JobCatalog.expireOneOff, JobCatalog.retainRuns, get_filter,
    Option.filter_eq_some_iff, contains_iff, jobs]

/-- Pruning never removes an array without its terminal receipt. -/
theorem pruneWithin_unfinished (present : store.arrays[id]? = some record)
    (unfinished : record.terminalAtEpochSecs = none)
    : (store.pruneWithin now retention).arrays[id]? = some record := by
  cases after : (store.pruneWithin now retention).arrays[id]? with
  | some kept => rw [← present, pruneWithin_arrays store now retention after]
  | none =>
    have notFinished : ¬ store.Finished id := by
      rintro ⟨_, _, found, receipt⟩
      rw [present] at found
      cases found
      rw [unfinished] at receipt
      cases receipt
    rcases evictAll_array (store.expired now retention) store present after with
      dropped | ⟨_, _, dropped, found, child⟩
    · rcases expired_sound dropped with ⟨impossible, _⟩ | ⟨_, finished, _⟩
      · cases impossible
      · exact absurd finished notFinished
    · rcases expired_sound dropped with ⟨_, _, sameParent, finished⟩ | ⟨impossible, _⟩
      · rw [found] at sameParent
        cases sameParent
        obtain ⟨cohort, member, rfl⟩ := List.mem_map.mp child
        exact absurd (finished cohort member) notFinished
      · cases impossible

-- Active-run slots

def isActive (record : TaskArrayRecord) : Bool :=
  !record.state.status.isTerminal

theorem active_length (store : TaskArrays)
    : store.active.length = BTreeMap.count (fun _ record => isActive record) store.arrays := by
  simp only [active, BTreeMap.count, List.countP_eq_length_filter, isActive]

theorem namespaceBulk_eq (store : TaskArrays) (ns : String)
    : store.namespaceBulk ns
      = BTreeMap.count (fun id record =>
          (record.ns == ns && store.admission id == .bulk) && isActive record) store.arrays := by
  simp only [namespaceBulk, active, BTreeMap.count, List.countP_filter, isActive]

@[simp] theorem checkCapacity_eq_ok {store : TaskArrays} {ns : String} {admission : Admission}
    {adding : Nat} {answer : Unit}
    : store.checkCapacity ns admission adding = .ok answer
      ↔ store.active.length + adding ≤ admission.limit
        ∧ (admission = .bulk → store.namespaceBulk ns + adding ≤ maxActiveRunsPerNamespace) := by
  unfold checkCapacity
  simp only
  split
  · rename_i full
    simp only [reduceCtorEq, false_iff, not_and]
    omega
  split
  · rename_i full
    simp only [reduceCtorEq, false_iff, not_and, not_forall]
    intro _
    exact ⟨full.1, by omega⟩
  · rename_i allowed
    simp only [true_iff]
    refine ⟨by omega, fun isBulk => ?_⟩
    by_contra exceeds
    exact allowed ⟨isBulk, by omega⟩

-- Moves

/-- Every active array of `next` was active before, in the same namespace and share. -/
def NoNewActive (store next : TaskArrays) : Prop :=
  ∀ (id : Nat) (record : TaskArrayRecord),
    next.arrays[id]? = some record
    → isActive record = true
    → ∃ before,
        store.arrays[id]? = some before
        ∧ isActive before = true
        ∧ before.ns = record.ns
        ∧ next.admission id = store.admission id

theorem NoNewActive.active_le {store next : TaskArrays} (kept : store.NoNewActive next)
    : next.active.length ≤ store.active.length := by
  rw [active_length, active_length]
  apply count_le_count
  intro id record present running
  obtain ⟨before, found, wasRunning, _⟩ := kept id record present running
  exact ⟨before, found, wasRunning⟩

theorem NoNewActive.namespaceBulk_le {store next : TaskArrays} (kept : store.NoNewActive next)
    (ns : String)
    : next.namespaceBulk ns ≤ store.namespaceBulk ns := by
  rw [namespaceBulk_eq, namespaceBulk_eq]
  apply count_le_count
  intro id record present counted
  simp only [Bool.and_eq_true, beq_iff_eq] at counted
  obtain ⟨before, found, wasRunning, sameNs, sameShare⟩ := kept id record present counted.2
  refine ⟨before, found, ?_⟩
  simp [sameNs, ← sameShare, counted, wasRunning]

theorem noNewActive_prune (store : TaskArrays) (now retention : Nat)
    : store.NoNewActive (store.pruneWithin now retention) := by
  intro id record present running
  refine ⟨record, pruneWithin_arrays store now retention present, running, rfl, ?_⟩
  have sameRun : (store.pruneWithin now retention).jobs.runs[id]? = store.jobs.runs[id]? := by
    apply Option.ext
    intro run
    rw [pruneWithin_runs]
    exact ⟨fun kept => kept.1, fun found => ⟨found, record, present⟩⟩
  simp only [admission, sameRun]

/-- A new active array under an id that is not taken takes one slot of its share. -/
theorem active_insert {store : TaskArrays} {id : Nat} {record : TaskArrayRecord}
    (absent : store.arrays[id]? = none) (running : isActive record = true)
    (next : TaskArrays) (arrays : next.arrays = store.arrays.insert id record)
    : next.active.length = store.active.length + 1 := by
  rw [active_length, active_length, arrays, count_insert, erase_eq_self absent]
  simp [running]

theorem namespaceBulk_insert {store next : TaskArrays} {id : Nat} {record : TaskArrayRecord}
    (absent : store.arrays[id]? = none) (arrays : next.arrays = store.arrays.insert id record)
    (others : ∀ other, other ≠ id → next.admission other = store.admission other) (ns : String)
    : next.namespaceBulk ns
      ≤ store.namespaceBulk ns
        + if record.ns = ns ∧ next.admission id = .bulk then 1 else 0 := by
  rw [namespaceBulk_eq, namespaceBulk_eq, arrays, count_insert, erase_eq_self absent]
  have old : BTreeMap.count (fun other record =>
        (record.ns == ns && next.admission other == .bulk) && isActive record) store.arrays
      ≤ BTreeMap.count (fun other record =>
        (record.ns == ns && store.admission other == .bulk) && isActive record)
        store.arrays := by
    apply count_le_count
    intro other found present counted
    have different : other ≠ id := by
      rintro rfl
      rw [absent] at present
      cases present
    exact ⟨found, present, by rwa [others other different] at counted⟩
  apply Nat.add_le_add old
  by_cases counted : record.ns = ns ∧ next.admission id = .bulk
  · simp only [counted, and_self, if_true]
    split <;> omega
  have uncounted : ((record.ns == ns && next.admission id == .bulk) && isActive record)
      = false := by
    by_contra some
    simp only [Bool.not_eq_false, Bool.and_eq_true, beq_iff_eq] at some
    exact counted some.1
  simp [uncounted]

end TaskArrays

/-- A new array is active: it has at least one chunk, and every chunk is queued. -/
theorem TaskArrayState.new_running {spec : TaskArraySpec} {now : Nat} {state : TaskArrayState}
    (created : TaskArrayState.new spec now = .ok state)
    : state.status.isTerminal = false := by
  unfold TaskArrayState.new at created
  split at created
  · cases created
  cases created
  rw [← Bool.not_eq_true, TaskArrayState.status_isTerminal_iff]
  rintro ⟨empty, _⟩
  exact IndexRangeSet.isEmpty_iff.mp empty 0 (by simp)

end Reliaburger
