import Reliaburger.Store.Transactions

/-! Submitted arrays, manifests and finite batches as sequences of changes. -/

namespace Reliaburger

open Checks BTreeMap TaskArrayState TaskArrays

variable {P : Platform} {ids : Nat → Nat} {G : Guard}

namespace TaskArrays

variable {adding : Nat} {ns : String} {store : TaskArrays}

/-- Room for several more arrays is room for one. -/
theorem checkCapacity_one {admission : Admission}
    (room : store.checkCapacity ns admission (adding + 1) = .ok ())
    : store.checkCapacity ns admission 1 = .ok () := by
  rw [checkCapacity_eq_ok] at room ⊢
  refine ⟨by omega, fun isBulk => ?_⟩
  have := room.2 isBulk
  omega

theorem checkCapacity_prune {admission : Admission}
    (room : store.checkCapacity ns admission adding = .ok ()) (now retention : Nat)
    : (store.pruneWithin now retention).checkCapacity ns admission adding = .ok () := by
  rw [checkCapacity_eq_ok] at room ⊢
  have kept := noNewActive_prune store now retention
  have active := kept.active_le
  have bulk := kept.namespaceBulk_le ns
  refine ⟨by omega, fun isBulk => ?_⟩
  have := room.2 isBulk
  omega

/-- One enrolled array uses one of the slots that were checked. -/
theorem checkCapacity_enrol {id : Nat} {record : TaskArrayRecord}
    (absent : store.arrays[id]? = none) (running : isActive record = true)
    (room : store.checkCapacity ns .bulk (adding + 1) = .ok ())
    : ({ store with arrays := store.arrays.insert id record } : TaskArrays).checkCapacity
        ns .bulk adding
      = .ok () := by
  rw [checkCapacity_eq_ok] at room ⊢
  have active := active_insert absent running
    { store with arrays := store.arrays.insert id record } rfl
  have bulk := @namespaceBulk_insert store
    { store with arrays := store.arrays.insert id record } id record absent rfl
    (fun _ _ => rfl) ns
  refine ⟨by omega, fun isBulk => ?_⟩
  have := room.2 isBulk
  split at bulk <;> omega

end TaskArrays

namespace Machine

-- Single arrays

theorem register_changes (machine : Machine) (name ns : String) (template : JobSpec)
    (spec : TaskArraySpec) (now : Nat)
    : Changes P ids G machine (machine.register P ids name ns template spec now).2 := by
  unfold register
  split
  · exact .refl
  rename_i labels
  split
  · exact .refl
  rename_i validTemplate
  split
  · exact .refl
  rename_i state created
  have pruned : Change P ids G machine { machine with store := machine.store.pruneAt now } :=
    .prune now terminalRetentionSecs
  simp only
  split
  · exact .single pruned
  rename_i room
  simp only [Bool.or_eq_true, Bool.not_eq_true', not_or, Bool.not_eq_false] at labels
  refine .tail (.single pruned) (.enrol ?_)
  exact ⟨labels.2, labels.1, validTemplate, ⟨spec, now, state, created, rfl⟩, room⟩

-- Manifests

variable {cohorts : List ManifestCohort} {requestId : String} {jobs : List (String × JobSpec)}

/-- Accepted profiles are valid, with names that differ from each other and from those before
them. -/
theorem checkCohorts_ok {seen : List String} (checked : checkCohorts P seen cohorts = .ok ())
    : (∀ cohort ∈ cohorts,
        cohort.spec.validate = .ok () ∧ validateTemplate P cohort.template = .ok ())
      ∧ (cohorts.map (·.name)).Nodup
      ∧ ∀ cohort ∈ cohorts, cohort.name ∉ seen := by
  induction cohorts generalizing seen with
  | nil => simp
  | cons cohort rest ih =>
    unfold checkCohorts at checked
    split at checked
    · cases checked
    rename_i label
    split at checked
    · cases checked
    rename_i validSpec
    split at checked
    · cases checked
    rename_i validTemplate
    obtain ⟨valid, distinct, unseen⟩ := ih checked
    simp only [Bool.or_eq_true, Bool.not_eq_true', not_or, List.contains_iff_mem] at label
    refine ⟨?_, ?_, ?_⟩
    · simpa using ⟨⟨validSpec, validTemplate⟩, valid⟩
    · rw [List.map_cons, List.nodup_cons]
      refine ⟨?_, distinct⟩
      intro again
      obtain ⟨other, member, same⟩ := List.mem_map.mp again
      exact unseen other member (same ▸ List.mem_cons_self)
    · intro other member
      rcases List.mem_cons.mp member with rfl | later
      · exact label.2
      · exact fun before => unseen other later (List.mem_cons_of_mem _ before)

def identities (ids : Nat → Nat) (start : Nat) : List ManifestCohort → List (String × Nat)
  | [] => []
  | cohort :: rest => (cohort.name, ids start) :: identities ids (start + 1) rest

theorem identities_names (start : Nat) (cohorts : List ManifestCohort)
    : (identities ids start cohorts).map Prod.fst = cohorts.map (·.name) := by
  induction cohorts generalizing start with
  | nil => rfl
  | cons cohort rest ih => simp [identities, ih]

theorem identities_length (start : Nat) (cohorts : List ManifestCohort)
    : (identities ids start cohorts).length = cohorts.length := by
  simpa using congrArg List.length (identities_names start cohorts)

theorem mem_identities {start : Nat} {entry : String × Nat}
    (member : entry ∈ identities ids start cohorts)
    : ∃ index, start ≤ index ∧ index < start + cohorts.length ∧ ids index = entry.2 := by
  induction cohorts generalizing start with
  | nil => cases member
  | cons cohort rest ih =>
    rcases List.mem_cons.mp member with rfl | later
    · exact ⟨start, le_rfl, by simp, rfl⟩
    obtain ⟨index, _, _, same⟩ := ih later
    refine ⟨index, by omega, ?_, same⟩
    rw [List.length_cons]
    omega

theorem identities_nodup (fresh : FreshIds ids) (start : Nat) (cohorts : List ManifestCohort)
    : ((identities ids start cohorts).map Prod.snd).Nodup := by
  induction cohorts generalizing start with
  | nil => simp [identities]
  | cons cohort rest ih =>
    rw [identities, List.map_cons, List.nodup_cons]
    refine ⟨?_, ih (start + 1)⟩
    intro again
    obtain ⟨_, member, same⟩ := List.mem_map.mp again
    obtain ⟨_, _, _, isEntry⟩ := mem_identities member
    have := fresh.distinct (isEntry.trans same)
    omega

/-- What enrolling a manifest's profiles does: each gets an array under its new identity, and
nothing else changes. -/
structure Enrolled (ids : Nat → Nat) (before after : Machine) (cohorts : List ManifestCohort)
    : Prop where
  allocated : after.allocated = before.allocated + cohorts.length
  rest : after.store = { before.store with arrays := after.store.arrays }
  kept
    : ∀ index < before.allocated,
        after.store.arrays[ids index]? = before.store.arrays[ids index]?
  present
    : ∀ entry ∈ identities ids before.allocated cohorts,
        ∃ record, after.store.arrays[entry.2]? = some record
  size : after.store.arrays.size ≤ before.store.arrays.size + cohorts.length

/-- Profiles that were checked enrol without a refusal, one change each, by induction on the
profiles. -/
theorem enrolEach_changes (fresh : FreshIds ids) {name ns : String} (now : Nat)
    (nameLabel : validWorkloadLabel name = true) (nsLabel : validWorkloadLabel ns = true)
    (cohorts : List ManifestCohort)
    (valid : ∀ cohort ∈ cohorts,
      cohort.spec.validate = .ok () ∧ validateTemplate P cohort.template = .ok ())
    (machine : Machine) (known : Known ids machine)
    (room : machine.store.checkCapacity ns .bulk cohorts.length = .ok ())
    : ∃ final,
        enrolEach ids name ns now cohorts machine
          = (.ok (identities ids machine.allocated cohorts), final)
        ∧ Changes P ids G machine final
        ∧ Enrolled ids machine final cohorts := by
  induction cohorts generalizing machine with
  | nil =>
    exact ⟨machine, rfl, .refl, rfl, rfl, fun _ _ => rfl, by simp [identities], by simp⟩
  | cons cohort rest ih =>
    obtain ⟨validSpec, validTemplate⟩ := valid cohort List.mem_cons_self
    obtain ⟨state, created⟩ : ∃ state, TaskArrayState.new cohort.spec now = .ok state := by
      simp [TaskArrayState.new, validSpec]
    let record := newRecord name ns cohort.template state
    let enrolled : Machine :=
      { store :=
          { machine.store with
            arrays := machine.store.arrays.insert (ids machine.allocated) record }
        allocated := machine.allocated + 1 }
    have first : Change P ids G machine enrolled :=
      .enrol ⟨nsLabel, nameLabel, validTemplate, ⟨_, now, state, created, rfl⟩,
        checkCapacity_one room⟩
    have absent := (known.unused fresh le_rfl).noArray
    have running : isActive record = true := by
      simp [isActive, record, newRecord, new_running created]
    obtain ⟨final, rested, later, done⟩ := ih
      (List.forall_mem_cons.mp valid).2 enrolled
      (first.known fresh known) (checkCapacity_enrol absent running room)
    refine ⟨final, ?_, .head first later, ?_⟩
    · simp only [enrolEach, allocate, created]
      rw [show enrolEach ids name ns now rest _ = _ from rested]
      rfl
    refine ⟨?_, ?_, ?_, ?_, ?_⟩
    · rw [done.allocated, List.length_cons]
      simp only [enrolled]
      omega
    · rw [done.rest]
    · intro index early
      have different : ids machine.allocated ≠ ids index :=
        fun same => absurd (fresh.distinct same) (Nat.ne_of_gt early)
      rw [done.kept index (Nat.lt_succ_of_lt early)]
      exact get_insert_ne _ _ different
    · intro entry member
      rcases List.mem_cons.mp member with rfl | further
      · refine ⟨record, ?_⟩
        rw [done.kept machine.allocated (Nat.lt_succ_self _)]
        exact get_insert_self _ _ _
      · exact done.present entry further
    · have grown := done.size
      simp only [enrolled, size_insert_of_absent _ absent] at grown
      rw [List.length_cons]
      omega

theorem requested_eq_none {store : TaskArrays}
    : requested store requestId = none
      ↔ ∀ (id : Nat) (manifest : TaskManifest),
          store.manifests[id]? = some manifest
          → ∀ request, manifest.request = some request → request.1 ≠ requestId := by
  simp only [requested, List.find?_eq_none, Prod.forall, mem_toList, Option.any_eq_true,
    beq_iff_eq, not_exists, not_and, ne_eq]

theorem checkManifest_ok {name ns : String} (checked : checkManifest P name ns cohorts = .ok ())
    : validWorkloadLabel name = true
      ∧ validWorkloadLabel ns = true
      ∧ cohorts ≠ []
      ∧ cohorts.length ≤ 16
      ∧ checkCohorts P [] cohorts = .ok () := by
  unfold checkManifest at checked
  split at checked
  · cases checked
  rename_i shape
  split at checked
  · cases checked
  rename_i valid
  simp only [Bool.or_eq_true, Bool.not_eq_true', not_or, Bool.not_eq_false,
    List.isEmpty_iff, decide_eq_true_eq, not_lt] at shape
  exact ⟨shape.1.1.1, shape.1.1.2, shape.1.2, shape.2, valid⟩

theorem manifestReplay_none {store : TaskArrays} {name ns : String}
    (unasked : manifestReplay P store name ns requestId cohorts = .ok none)
    : requested store requestId = none := by
  unfold manifestReplay at unasked
  split at unasked
  · cases unasked
  split at unasked
  · assumption
  · split at unasked <;> cases unasked

/-- Registering a manifest reserves its identity, enrols its profiles, and files it. -/
theorem registerManifest_changes (fresh : FreshIds ids) (machine : Machine)
    (known : Known ids machine) (base : G.base ≤ machine.allocated)
    (name ns requestId : String) (cohorts : List ManifestCohort) (now : Nat)
    : Changes P ids G machine
      (machine.registerManifest P ids name ns requestId cohorts now).2 := by
  unfold registerManifest
  split
  · exact .refl
  · exact .refl
  rename_i unasked
  split
  · exact .refl
  rename_i checked
  split
  · exact .refl
  rename_i room
  obtain ⟨nameLabel, nsLabel, nonempty, few, profiles⟩ := checkManifest_ok checked
  obtain ⟨valid, names, _⟩ := checkCohorts_ok profiles
  let reserved : Machine :=
    { store := machine.store.pruneAt now, allocated := machine.allocated + 1 }
  have pruned : Change P ids G machine { machine with store := machine.store.pruneAt now } :=
    .prune now terminalRetentionSecs
  have reserves : Change P ids G { machine with store := machine.store.pruneAt now } reserved :=
    .reserve
  have known' : Known ids reserved := reserves.known fresh (pruned.known fresh known)
  obtain ⟨final, enrolled, changed, done⟩ :=
    @enrolEach_changes P ids G fresh name ns now nameLabel nsLabel cohorts valid reserved known'
      (checkCapacity_prune room now terminalRetentionSecs)
  have start : Changes P ids G machine final := .head pruned (.head reserves changed)
  simp only [allocate]
  rw [show enrolEach ids name ns now cohorts _ = _ from enrolled]
  have unused : Unused reserved.store (ids machine.allocated) :=
    (pruned.known fresh known).unused fresh le_rfl
  refine .tail start (@Change.file P ids G final machine.allocated _ requestId base ?_ ?_ ?_ ?_)
  · rw [done.allocated]
    simp only [reserved]
    omega
  · rw [done.kept machine.allocated (Nat.lt_succ_self _)]
    exact unused.noArray
  · rw [done.rest]
    exact unused.noManifest
  · -- The new identities are nobody's yet; `Enrolled` leaves runs and manifests alone.
    have taken : ∀ cohort ∈ identities ids reserved.allocated cohorts,
        ∃ index, machine.allocated + 1 ≤ index ∧ index < final.allocated
          ∧ ids index = cohort.2 := by
      intro cohort member
      obtain ⟨index, low, high, same⟩ := mem_identities member
      exact ⟨index, low, by rw [done.allocated]; exact high, same⟩
    have free : ∀ cohort ∈ identities ids reserved.allocated cohorts,
        Unused reserved.store cohort.2 := by
      intro cohort member
      obtain ⟨index, low, _, same⟩ := taken cohort member
      exact same ▸ known'.unused fresh low
    refine ⟨⟨_, rfl⟩, ?_, ?_, ?_, ?_, identities_nodup fresh _ _, ?_, ?_, by simp, ?_⟩
    · intro id other request found asked
      rw [done.rest] at found
      exact requested_eq_none.mp (manifestReplay_none unasked) id other
        (machine.store.pruneWithin_manifests _ _ found) request asked
    · simpa [← List.length_pos_iff, identities_length] using nonempty
    · simpa [identities_length] using few
    · rw [identities_names]
      exact names
    · intro cohort member
      obtain ⟨index, _, high, same⟩ := taken cohort member
      exact ⟨index, high, same⟩
    · intro cohort member
      rw [done.rest]
      exact (free cohort member).noChild
    · intro _ cohort member
      refine ⟨done.present cohort member, ?_⟩
      rw [done.rest]
      exact (free cohort member).noRun

-- Finite batches

/-- No run that a finite batch would find again has finished, so none of them can be pruned
while the batch is registered. -/
def Unfinished (store : TaskArrays) (requestId : String) (jobs : List (String × JobSpec))
    : Prop :=
  ∀ job ∈ jobs, ∀ (id : Nat) (run : RunRecord),
    store.jobs.runs[id]? = some run
    → run.name = job.1
    → run.ns = job.2.namespace
    → run.trigger = .manual requestId
    → ∃ record, store.arrays[id]? = some record ∧ record.terminalAtEpochSecs = none

/-- One collected run of a finite batch. -/
structure Collected (G : Guard) (ids : Nat → Nat) (requestId : String) (machine : Machine)
    (entry : String × Nat) : Prop where
  taken : ∃ index < machine.allocated, ids index = entry.2
  named : ∀ run,
    machine.store.jobs.runs[entry.2]? = some run
    → run.name = entry.1 ∧ run.trigger = .manual requestId
  whole : G.whole
    → ∃ run record,
        machine.store.jobs.runs[entry.2]? = some run
        ∧ machine.store.arrays[entry.2]? = some record
        ∧ record.terminalAtEpochSecs = none

theorem Collected.frame (fresh : FreshIds ids) {before after : Machine} {entry : String × Nat}
    (frame : JobFrame ids before after) (collected : Collected G ids requestId before entry)
    : Collected G ids requestId after entry := by
  obtain ⟨index, early, same⟩ := collected.taken
  refine ⟨⟨index, early.trans_le frame.allocated, same⟩, ?_, ?_⟩
  · intro run found
    rcases frame.runs found with retained | ⟨_, _, _, _, isOther, _⟩
    · exact collected.named run retained
    · have := fresh.distinct (same.trans isOther.symm)
      omega
  · intro whole
    obtain ⟨run, record, found, present, running⟩ := collected.whole whole
    rw [← same] at found present ⊢
    obtain ⟨still, sameRun⟩ := frame.unfinished early present running
    exact ⟨run, record, sameRun.trans found, still, running⟩

theorem Unfinished.frame {before after : Machine} (known : Known ids before)
    (frame : JobFrame ids before after) (unfinished : Unfinished before.store requestId jobs)
    : Unfinished after.store requestId jobs := by
  intro job member id run found named home trigger
  rcases frame.runs found with retained | ⟨_, record, _, _, _, present, running⟩
  · obtain ⟨record, present, running⟩ := unfinished job member id run retained named home trigger
    obtain ⟨_, early, rfl⟩ := known.arrays present
    exact ⟨record, (frame.unfinished early present running).1, running⟩
  · exact ⟨record, present, running⟩

/-- What registering the jobs of a finite batch collects: for each job a run that was retained
before, or one under a new id. -/
structure CollectedAll (G : Guard) (ids : Nat → Nat) (requestId : String)
    (before after : Machine) (jobs : List (String × JobSpec)) (cohorts : List (String × Nat))
    : Prop where
  names : cohorts.map Prod.fst = jobs.map Prod.fst
  origin
    : ∀ entry ∈ cohorts,
        (∃ run,
          before.store.jobs.runs[entry.2]? = some run
          ∧ run.name = entry.1
          ∧ run.trigger = .manual requestId)
        ∨ ∃ index, before.allocated ≤ index ∧ ids index = entry.2
  collected : ∀ entry ∈ cohorts, Collected G ids requestId after entry
  distinct : (jobs.map Prod.fst).Nodup → (cohorts.map Prod.snd).Nodup

/-- The jobs of a finite batch are admitted in turn, by induction on the jobs. -/
theorem registerEach_changes (fresh : FreshIds ids) (requestId : String) (now : Nat)
    (admits : ∀ ns name, G.admits ns name (.manual requestId)) (jobs : List (String × JobSpec))
    (unscheduled : ∀ job ∈ jobs, job.2.schedule = none)
    (machine : Machine) (known : Known ids machine)
    (lasting : G.whole → Unfinished machine.store requestId jobs)
    : Changes P ids G machine (registerEach P ids requestId now jobs machine).2
      ∧ JobFrame ids machine (registerEach P ids requestId now jobs machine).2
      ∧ ∀ cohorts,
          (registerEach P ids requestId now jobs machine).1 = .ok cohorts
          → CollectedAll G ids requestId machine
            (registerEach P ids requestId now jobs machine).2 jobs cohorts := by
  induction jobs generalizing machine with
  | nil =>
    refine ⟨.refl, .refl machine, ?_⟩
    rintro _ ⟨⟩
    exact ⟨rfl, by simp, by simp, by simp⟩
  | cons job rest ih =>
    have permits : PermitsJob G (batchPut requestId now job) := by
      refine ⟨fun _ asked => Option.some.inj asked ▸ admits _ _, fun scheduled => ?_⟩
      simp [JobDefinition.fromSpec, unscheduled job List.mem_cons_self] at scheduled
    have first := @applyJob_changes P ids _ machine _ permits
    have frame := applyJob_frame (P := P) fresh machine (batchPut requestId now job)
    rcases applied : machine.applyJob P ids (batchPut requestId now job) with
      ⟨_ | _, next⟩
    · rw [applied] at first frame
      simp only [registerEach, applied]
      exact ⟨first, frame, by simp⟩
    rw [applied] at first frame
    obtain ⟨id, run, rfl, found, answers, source⟩ := applyJob_put applied
    have known' : Known ids next := known.changes fresh first
    have lasting' : G.whole → Unfinished next.store requestId (job :: rest) :=
      fun whole => (lasting whole).frame known frame
    have here : Collected G ids requestId next (job.1, id) := by
      refine ⟨known'.runs found, ?_, ?_⟩
      · intro other same
        rw [found] at same
        cases same
        exact ⟨answers.sameName, answers.sameTrigger⟩
      · intro whole
        obtain ⟨record, present, running⟩ := lasting' whole job List.mem_cons_self id run found
          answers.sameName answers.sameNs answers.sameTrigger
        exact ⟨run, record, found, present, running⟩
    obtain ⟨later, frame', collects⟩ := ih
      (List.forall_mem_cons.mp unscheduled).2 next known'
      (fun whole other member => lasting' whole other (List.mem_cons_of_mem _ member))
    rcases rested : registerEach P ids requestId now rest next with ⟨_ | cohorts, _⟩
    · rw [rested] at later frame'
      simp only [registerEach, applied, rested]
      exact ⟨first.trans later, frame.trans frame', by simp⟩
    rw [rested] at later frame' collects
    have all := collects cohorts rfl
    simp only [registerEach, applied, rested]
    refine ⟨first.trans later, frame.trans frame', ?_⟩
    rintro _ ⟨⟩
    refine ⟨by simp [all.names], ?_, ?_, ?_⟩
    · intro entry member
      rcases List.mem_cons.mp member with rfl | further
      · rcases source with ⟨_, before⟩ | ⟨isNew, _⟩
        · exact .inl ⟨run, before, answers.sameName, answers.sameTrigger⟩
        · exact .inr ⟨machine.allocated, le_rfl, isNew.symm⟩
      · rcases all.origin entry further with
          ⟨other, retained, named⟩ | ⟨index, late, same⟩
        · rcases frame.runs retained with before | ⟨index, _, late, _, same, _⟩
          · exact .inl ⟨other, before, named⟩
          · exact .inr ⟨index, late, same⟩
        · exact .inr ⟨index, frame.allocated.trans late, same⟩
    · intro entry member
      rcases List.mem_cons.mp member with rfl | further
      · exact here.frame fresh frame'
      · exact all.collected entry further
    · intro distinct
      rw [List.map_cons, List.nodup_cons] at distinct ⊢
      refine ⟨?_, all.distinct distinct.2⟩
      intro again
      obtain ⟨entry, member, same⟩ := List.mem_map.mp again
      rcases all.origin entry member with ⟨other, retained, named⟩ | ⟨_, _, isEntry⟩
      · -- The run cannot carry the names of two jobs of the batch.
        rw [same] at retained
        have isHere := (here.named other retained).1
        refine distinct.1 ?_
        rw [← all.names, ← isHere, named.1]
        exact List.mem_map.mpr ⟨entry, member, rfl⟩
      · obtain ⟨_, _, isHere⟩ := here.taken
        have := fresh.distinct (isHere.trans (same.symm.trans isEntry.symm))
        omega

/-- The jobs of an accepted batch have distinct labels and no trigger fields. -/
theorem checkFiniteJobs_ok {seen : List String} (checked : checkFiniteJobs P seen jobs = .ok ())
    : (∀ job ∈ jobs,
        validWorkloadLabel job.1 = true
        ∧ validWorkloadLabel job.2.namespace = true
        ∧ job.2.schedule = none
        ∧ job.1 ∉ seen)
      ∧ (jobs.map Prod.fst).Nodup := by
  induction jobs generalizing seen with
  | nil => simp
  | cons job rest ih =>
    obtain ⟨_, _⟩ := job
    unfold checkFiniteJobs at checked
    split at checked
    · cases checked
    rename_i shape
    split at checked
    · cases checked
    rename_i home
    split at checked
    · cases checked
    obtain ⟨valid, distinct⟩ := ih checked
    simp only [Bool.or_eq_true, Bool.not_eq_true', not_or, Bool.not_eq_false,
      List.contains_iff_mem, Option.isSome_iff_ne_none, ne_eq, not_not] at shape
    simp only [Bool.not_eq_true', Bool.not_eq_false] at home
    refine ⟨?_, ?_⟩
    · intro job member
      rcases List.mem_cons.mp member with rfl | later
      · exact ⟨shape.1.1.1, home, shape.1.2, shape.1.1.2⟩
      · obtain ⟨label, itsHome, unscheduled, unseen⟩ := valid job later
        exact ⟨label, itsHome, unscheduled, fun before => unseen (List.mem_cons_of_mem _ before)⟩
    · rw [List.map_cons, List.nodup_cons]
      refine ⟨?_, distinct⟩
      intro again
      obtain ⟨other, member, same⟩ := List.mem_map.mp again
      exact (valid other member).2.2.2 (same ▸ List.mem_cons_self)

theorem mem_normaliseJobs {job : String × JobSpec} (member : job ∈ normaliseJobs jobs)
    : ∃ given ∈ jobs, job = (given.1, { given.2 with ns := some given.2.namespace }) := by
  obtain ⟨given, listed, rfl⟩ := List.mem_map.mp member
  exact ⟨given, (List.mem_insertionSort _).mp listed, rfl⟩

theorem normaliseJobs_names (jobs : List (String × JobSpec))
    : (normaliseJobs jobs).map Prod.fst
      = (jobs.insertionSort (fun left right => left.1 ≤ right.1)).map Prod.fst := by
  simp only [normaliseJobs, List.map_map]
  rfl

/-- A finite batch admits its jobs, reserves its identity, and files its manifest. -/
theorem registerJobs_changes (fresh : FreshIds ids) (machine : Machine)
    (known : Known ids machine) (base : G.base ≤ machine.allocated) (requestId : String)
    (admits : ∀ ns name, G.admits ns name (.manual requestId))
    (jobs : List (String × JobSpec)) (now : Nat)
    (lasting : G.whole → Unfinished machine.store requestId jobs)
    : Changes P ids G machine (registerJobs P ids requestId jobs now machine).2 := by
  unfold registerJobs
  split
  · exact .refl
  rename_i shape
  simp only [Bool.or_eq_true, Bool.not_eq_true', not_or, Bool.not_eq_false, List.isEmpty_iff,
    decide_eq_true_eq, not_lt] at shape
  split
  · exact .refl
  rename_i checked
  obtain ⟨valid, distinct⟩ := checkFiniteJobs_ok checked
  simp only
  split
  · split <;> exact .refl
  rename_i unasked
  have unscheduled : ∀ job ∈ normaliseJobs jobs, job.2.schedule = none := by
    intro job member
    obtain ⟨given, listed, rfl⟩ := mem_normaliseJobs member
    exact (valid given ((List.mem_insertionSort _).mpr listed)).2.2.1
  have lasting' : G.whole → Unfinished machine.store requestId (normaliseJobs jobs) := by
    intro whole job member
    obtain ⟨given, listed, rfl⟩ := mem_normaliseJobs member
    exact lasting whole given listed
  obtain ⟨changed, frame, collects⟩ := registerEach_changes (P := P) fresh requestId now
    admits (normaliseJobs jobs) unscheduled machine known lasting'
  split
  · rename_i next registered
    rw [registered] at changed
    exact changed
  rename_i cohorts next registered
  rw [registered] at changed frame collects
  have all := collects cohorts rfl
  have known' : Known ids next := known.changes fresh changed
  have unused := known'.unused fresh le_rfl
  have length : cohorts.length = jobs.length := by
    have sameLength := congrArg List.length all.names
    simpa [normaliseJobs, List.length_insertionSort] using sameLength
  refine .tail (.tail changed .reserve) (@Change.file P ids G
    { next with allocated := next.allocated + 1 } next.allocated _ requestId
    (base.trans frame.allocated) (Nat.lt_succ_self _) unused.noArray unused.noManifest ?_)
  refine ⟨⟨_, rfl⟩, ?_, ?_, ?_, ?_, ?_, ?_, ?_, ?_, by simp⟩
  · intro id other request found asked
    exact requested_eq_none.mp unasked id other (frame.manifests found) request asked
  · intro empty
    rw [show cohorts = [] from empty, List.length_nil] at length
    exact shape.1.2 (List.length_eq_zero_iff.mp length.symm)
  · simp only [if_true, length]
    exact shape.2
  · rw [all.names, normaliseJobs_names]
    exact distinct
  · exact all.distinct (by rw [normaliseJobs_names]; exact distinct)
  · intro cohort member
    obtain ⟨index, early, same⟩ := (all.collected cohort member).taken
    exact ⟨index, Nat.lt_succ_of_lt early, same⟩
  · intro cohort member child
    obtain ⟨parent, manifest, filed, listed⟩ := mem_children.mp child
    have before := frame.manifests filed
    rcases all.origin cohort member with ⟨run, retained, _, trigger⟩ | ⟨_, late, same⟩
    · obtain ⟨_, _, isAsked, answered⟩ := known.attributed before listed retained
      rw [trigger] at answered
      cases answered
      exact requested_eq_none.mp unasked parent manifest before _ isAsked rfl
    · refine (known.unused fresh late).noChild ?_
      rw [same]
      exact mem_children.mpr ⟨parent, manifest, before, listed⟩
  · intro _ cohort member
    have collected := all.collected cohort member
    refine ⟨collected.named, fun whole => ?_⟩
    obtain ⟨run, _, found, _⟩ := collected.whole whole
    exact ⟨run, found⟩

end Machine

end Reliaburger
