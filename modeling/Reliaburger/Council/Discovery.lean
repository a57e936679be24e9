import Reliaburger.Council.Frame

/-! Executions that were retired from service discovery stay out of it, along every log. -/

namespace Reliaburger

open BTreeMap Checks

/-- The backends that a catalogue lists, of any service. -/
def EndpointCatalog.backends (catalog : EndpointCatalog) : Set CatalogBackend :=
  { backend | ∃ service ∈ catalog.services.valueList, backend ∈ service.backends }

/-- A catalogue whose services keep some of their backends lists those. -/
theorem EndpointCatalog.backends_filtered (catalog : EndpointCatalog)
    (keep : CatalogBackend → Bool)
    : backends { services := catalog.services.map (fun _ service =>
        { service with backends := service.backends.filter keep }) }
      = { backend ∈ catalog.backends | keep backend = true } := by
  ext backend
  constructor
  · rintro ⟨_, listed, among⟩
    obtain ⟨name, found⟩ := mem_valueList.mp listed
    rw [Std.ExtTreeMap.getElem?_map] at found
    obtain ⟨service, present, rfl⟩ := Option.map_eq_some_iff.mp found
    obtain ⟨among, kept⟩ := List.mem_filter.mp among
    exact ⟨⟨service, mem_valueList.mpr ⟨name, present⟩, among⟩, kept⟩
  · rintro ⟨⟨service, listed, among⟩, kept⟩
    obtain ⟨name, present⟩ := mem_valueList.mp listed
    refine ⟨{ service with backends := service.backends.filter keep },
      mem_valueList.mpr ⟨name, ?_⟩, List.mem_filter.mpr ⟨among, kept⟩⟩
    rw [Std.ExtTreeMap.getElem?_map, present]
    rfl

namespace ProducerRetirements

variable {producers next : ProducerRetirements}

/-- The backends that may not be published. -/
def blocked (producers : ProducerRetirements) : Set CatalogBackend :=
  { backend | producers.blocks backend.nodeId backend.execution = true }

/-- The backends that may be a given execution of a node: of its generation, or of none that is
known. -/
def backendsOf (nodeId : String) (execution : RuntimeExecution) : Set CatalogBackend :=
  { backend | concerns nodeId execution backend = true }

/-- Another retirement leaves blocked what was blocked before. -/
theorem planRetirement_blocked {nodeId : String} {execution : RuntimeExecution}
    (plan : producers.planRetirement nodeId execution = .ok next)
    : producers.blocked ⊆ next.blocked := by
  intro backend blocked
  obtain ⟨_, _, plan⟩ := bind_eq_ok.mp plan
  obtain ⟨_, _, plan⟩ := bind_eq_ok.mp plan
  split at plan
  · split at plan <;> cases plan
    exact blocked
  obtain ⟨_, _, made⟩ := bind_eq_ok.mp plan
  cases made
  simp only [ProducerRetirements.blocked, Set.mem_ofPred_eq, blocks, get_insert] at blocked ⊢
  split at blocked
  · cases blocked
  by_cases same : nodeId = backend.nodeId
  · cases known : backend.execution <;> simp_all
  · simp_all

/-- A retirement that is planned blocks the execution, also where it had been retired before. -/
theorem planRetirement_retired {nodeId : String} {execution : RuntimeExecution}
    (plan : producers.planRetirement nodeId execution = .ok next)
    : backendsOf nodeId execution ⊆ next.blocked := by
  have fenced : ∃ entries,
      next.executions[nodeId]? = some entries ∧ execution.generation.text ∈ entries := by
    obtain ⟨_, _, plan⟩ := bind_eq_ok.mp plan
    obtain ⟨_, _, plan⟩ := bind_eq_ok.mp plan
    split at plan
    · rename_i original known
      split at plan <;> cases plan
      obtain ⟨entries, found, named⟩ := Option.bind_eq_some_iff.mp known
      exact ⟨entries, found, mem_iff.mpr ⟨_, named⟩⟩
    obtain ⟨_, _, made⟩ := bind_eq_ok.mp plan
    cases made
    exact ⟨_, get_insert_self _ _ _, Std.ExtTreeMap.mem_insert_self⟩
  obtain ⟨entries, found, retired⟩ := fenced
  intro backend concerned
  obtain ⟨sameNode, generation⟩ := Bool.and_eq_true_iff.mp concerned
  rw [beq_iff_eq] at sameNode
  rw [blocked, Set.mem_ofPred_eq, blocks, sameNode, found]
  cases known : backend.execution with
  | none => rfl
  | some original =>
    rw [known, Option.all_some, beq_iff_eq] at generation
    dsimp only
    rw [Option.all_some, generation]
    exact retired

end ProducerRetirements

namespace DesiredState

/-- What was blocked at an earlier time still is, and nothing that is blocked is listed. -/
def Excludes (earlier : ProducerRetirements) (endpoints : Endpoints) : Prop :=
  earlier.blocked ⊆ endpoints.producers.blocked
  ∧ Disjoint endpoints.catalog.backends endpoints.producers.blocked

variable {S : Surroundings} {state : DesiredState} {earlier : ProducerRetirements}

theorem excludes_onEndpoints {changed : Except EndpointRefusal Endpoints}
    (excludes : Ensures changed (Excludes earlier))
    : Ensures (state.onEndpoints changed) (fun answer => Excludes earlier answer.2.endpoints) :=
  ensures_bind fun _ made => ensures_ok (excludes _ (mapError_eq_ok.mp made))

theorem excludes_step (entry : CouncilEntry) (excludes : Excludes earlier state.endpoints)
    : Excludes earlier (state.step S entry).endpoints := by
  refine step_preserves [.endpoints] (by simp)
    (fun before after same (holds : Excludes earlier before.endpoints) => ?_) entry
    (fun request answer next _ touched handled => ?_) excludes
  · have unchanged : after.endpoints = before.endpoints := same .endpoints (by simp)
    exact unchanged ▸ holds
  have ⟨kept, unlisted⟩ := excludes
  cases request with
  | registerEndpointConsumer | acknowledgeEndpointWithdrawal =>
    refine excludes_onEndpoints ?_ _ handled
    repeat refine ensures_bind fun _ _ => ?_
    exact ensures_pure excludes
  | dischargeEndpointConsumer =>
    refine excludes_onEndpoints (ensures_bind fun _ _ => ?_) _ handled
    split <;> exact ensures_pure excludes
  | retireEndpointExecution =>
    obtain ⟨_, made, done⟩ := bind_eq_ok.mp handled
    cases done
    obtain ⟨_, _, made⟩ := bind_eq_ok.mp (mapError_eq_ok.mp made)
    obtain ⟨_, retired, made⟩ := bind_eq_ok.mp made
    obtain ⟨_, _, made⟩ := bind_eq_ok.mp made
    cases made
    refine ⟨kept.trans
      (ProducerRetirements.planRetirement_blocked (mapError_eq_ok.mp retired)), ?_⟩
    rw [ProducerRetirements.withdraw, EndpointCatalog.backends_filtered, Set.disjoint_left]
    rintro backend ⟨_, spared⟩ blocked
    rw [Bool.not_eq_true'] at spared
    exact Bool.noConfusion (spared.symm.trans blocked)
  | publishEndpoints =>
    refine excludes_onEndpoints ?_ _ handled
    refine ensures_bind fun _ _ => ensures_bind fun _ _ => ensures_bind fun _ allowed =>
      ensures_bind fun _ _ => ensures_pure ⟨kept, Set.disjoint_left.mpr ?_⟩
    rintro backend ⟨service, listed, among⟩ blocked
    simp only [refuseIf_eq_ok, EndpointCatalog.anyBackend, List.any_eq_true, not_exists,
      not_and] at allowed
    exact allowed service listed backend among blocked
  | decommissionNode =>
    obtain ⟨_, _, rest⟩ := bind_eq_ok.mp handled
    split at rest
    · cases rest
      exact excludes
    simp only [bind_eq_ok, mapError_eq_ok, Endpoints.decommission] at rest
    obtain ⟨_, _, _, _, _, _, _, _, _, ⟨_, _, made⟩, done⟩ := rest
    cases made
    cases done
    refine ⟨kept, unlisted.mono_left ?_⟩
    exact (EndpointCatalog.backends_filtered _ _).trans_subset (Set.sep_subset _ _)
  | _ => simp [CouncilRequest.touches] at touched

theorem excludes_run (entries : List CouncilEntry)
    (excludes : Excludes earlier state.endpoints)
    : Excludes earlier (state.run S entries).endpoints :=
  @Runs.run_invariant DesiredState _ _ _ (fun state => Excludes earlier state.endpoints)
    (fun _ entry => excludes_step entry) entries excludes

/-- The entry that retires an execution of a node. -/
def retiring (logId : LogId) (nodeId : String) (execution : RuntimeExecution) : CouncilEntry :=
  ⟨logId, .request (.retireEndpointExecution nodeId execution)⟩

/-- Whether an entry is answered as a retirement. -/
def Retires (S : Surroundings) (state : DesiredState) (entry : CouncilEntry) : Prop :=
  ∃ released, (state.applyEntry S entry).1 = .endpointExecutionRetired released

/-- An accepted retirement blocks the backends of its execution. -/
theorem retires_blocked {logId : LogId} {nodeId : String} {execution : RuntimeExecution}
    (retires : state.Retires S (retiring logId nodeId execution))
    : ProducerRetirements.backendsOf nodeId execution
      ⊆ (state.step S (retiring logId nodeId execution)).endpoints.producers.blocked := by
  obtain ⟨released, answered⟩ := retires
  rw [step]
  rw [applyEntry, retiring] at answered ⊢
  dsimp only [handle] at answered ⊢
  split at answered
  · rename_i handled
    obtain ⟨_, made, done⟩ := bind_eq_ok.mp handled
    cases done
    obtain ⟨_, _, made⟩ := bind_eq_ok.mp (mapError_eq_ok.mp made)
    obtain ⟨_, retired, made⟩ := bind_eq_ok.mp made
    obtain ⟨_, _, made⟩ := bind_eq_ok.mp made
    cases made
    exact ProducerRetirements.planRetirement_retired (mapError_eq_ok.mp retired)
  · cases answered

/-- An accepted retirement blocks the execution's backends, and no later catalogue lists a backend
that was blocked at any earlier time: one of a retired execution, or one without a known execution
on a node that had retired one.
-/
theorem retired_executions_stay_out (S : Surroundings) (before after : List CouncilEntry)
    : Disjoint (({} : DesiredState).run S (before ++ after)).endpoints.catalog.backends
        (({} : DesiredState).run S before).endpoints.producers.blocked
      ∧ ∀ logId nodeId execution,
          (({} : DesiredState).run S before).Retires S (retiring logId nodeId execution)
          → ProducerRetirements.backendsOf nodeId execution
              ⊆ (({} : DesiredState).run S
                  (before ++ [retiring logId nodeId execution])).endpoints.producers.blocked
            ∧ Disjoint
                (({} : DesiredState).run S
                  (before ++ [retiring logId nodeId execution] ++ after)).endpoints.catalog.backends
                (ProducerRetirements.backendsOf nodeId execution) := by
  have out (before after : List CouncilEntry)
      : Disjoint (({} : DesiredState).run S (before ++ after)).endpoints.catalog.backends
          (({} : DesiredState).run S before).endpoints.producers.blocked := by
    have first : Excludes {} (({} : DesiredState).run S before).endpoints :=
      excludes_run before ⟨subset_rfl, by simp [EndpointCatalog.backends, valueList]⟩
    rw [run_append]
    have last := excludes_run (S := S) after ⟨subset_rfl, first.2⟩
    exact last.2.mono_right last.1
  refine ⟨out before after, fun logId nodeId execution retires => ?_⟩
  have blocked : ProducerRetirements.backendsOf nodeId execution
      ⊆ (({} : DesiredState).run S
          (before ++ [retiring logId nodeId execution])).endpoints.producers.blocked := by
    rw [run_append]
    exact retires_blocked retires
  exact ⟨blocked, (out _ after).mono_right blocked⟩

def webExecution : RuntimeExecution where
  instanceId := "default__web-0"
  generation := ⟨String.ofList (List.replicate 64 'a'), by decide⟩

def otherExecution : RuntimeExecution where
  instanceId := "default__web-1"
  generation := ⟨String.ofList (List.replicate 64 'b'), by decide⟩

/-- One service with a backend on each of two nodes. -/
def webCatalog : EndpointCatalog where
  services := (∅ : BTreeMap String CatalogService).insert "default__web"
    { vip := firstVip
      port := 80
      backends := [⟨some webExecution, "node-a", 1, 8080, true⟩,
        ⟨some otherExecution, "node-b", 2, 8080, true⟩] }

def webLog : List CouncilEntry :=
  requestEntries 1 [.registerEndpointConsumer "node-c", .publishEndpoints 0 webCatalog]

/-- The first backend is published and retired, and a second publication of it is refused. -/
theorem retired_web_stays_out
    : let state := ({} : DesiredState).run plainSurroundings webLog
      let retired := retiring ⟨1, 3⟩ "node-a" webExecution
      let again := requestEntries 4 [.publishEndpoints 2 webCatalog]
      state.endpoints.catalog.anyBackend
        (ProducerRetirements.concerns "node-a" webExecution) = true
      ∧ (({} : DesiredState).run plainSurroundings
          (webLog ++ [retired] ++ again)).endpoints.catalog.anyBackend (fun _ => true) = true
      ∧ state.Retires plainSurroundings retired
      ∧ Disjoint
          (({} : DesiredState).run plainSurroundings
            (webLog ++ [retired] ++ again)).endpoints.catalog.backends
          (ProducerRetirements.backendsOf "node-a" webExecution) := by
  have retires : (({} : DesiredState).run plainSurroundings webLog).Retires plainSurroundings
      (retiring ⟨1, 3⟩ "node-a" webExecution) :=
    ⟨false, by decide +kernel⟩
  exact ⟨by decide +kernel, by decide +kernel, retires,
    ((retired_executions_stay_out plainSurroundings webLog _).2 _ _ _ retires).2⟩

end DesiredState

end Reliaburger
