import Reliaburger.Cluster.Acceptance
import Reliaburger.Leader.Budget

/-! What a pass commits to a namespace stays within its quota, as long as what the admitted apps may
come to hold fits beside what the others have committed. The ledger sees to that where everything
committed is charged to it: apps that run but aren't converged are charged only at their own turn.
-/

namespace Reliaburger

open BTreeMap NamespaceUsage

-- What a quota counts

inductive Counter where
  | of (resource : Resource)
  | replicas
deriving DecidableEq, Repr

namespace Counter

def cap : Counter → Nat
  | .of resource => resource.cap
  | .replicas => u32Size - 1

def cost (perReplica : Resources) (replicas : Nat) : Counter → Nat
  | .of resource => perReplica.amount resource * replicas
  | .replicas => replicas

end Counter

def NamespaceUsage.counter (usage : NamespaceUsage) : Counter → Nat
  | .of resource => usage.amount resource
  | .replicas => usage.replicaCount

def NamespaceQuota.counterLimit (quota : NamespaceQuota) : Counter → Option Nat
  | .of resource => quota.limit resource
  | .replicas => quota.maxReplicas.map Fin.val

theorem counter_accumulate (usage : NamespaceUsage) (perReplica : Resources) (replicas : Nat)
    (countApp : Bool) (counter : Counter)
    : (accumulate usage perReplica replicas countApp).counter counter
      = min (usage.counter counter + Counter.cost perReplica replicas counter) counter.cap := by
  cases counter with
  | of resource =>
    cases resource with
    | cpu | memory | gpus =>
      show min (_ + min _ _) _ = min (_ + _) _
      simp only [counter, amount, Counter.cost, Counter.cap, Resources.amount, Resource.cap]
      omega
  | replicas => rfl

/-- A quota passes what leaves every counter within its limit, and no app too many. -/
theorem checkQuota_eq_ok {ns : String} {quota : NamespaceQuota} {usage : NamespaceUsage}
    {requested : Resources} {replicas : Nat} {isNewApp : Bool} {answer : Unit}
    : checkQuota ns quota usage requested replicas isNewApp = .ok answer
      ↔ (∀ counter limit, quota.counterLimit counter = some limit
          → (accumulate usage requested replicas isNewApp).counter counter ≤ limit)
        ∧ ∀ limit, quota.maxApps = some limit → isNewApp = true → usage.appCount < limit := by
  simp only [checkQuota, Checks.bind_eq_ok, checkLimit_eq_ok, exists_const, not_lt, not_and,
    not_le]
  constructor
  · rintro ⟨cpu, memory, gpus, apps, replicas⟩
    refine ⟨?_, fun limit found => apps limit (by rw [found, Option.map_some])⟩
    rintro (⟨_ | _ | _⟩ | _) limit found
    · exact cpu limit found
    · exact memory limit found
    · exact gpus limit found
    · exact replicas limit found
  · rintro ⟨within, apps⟩
    refine ⟨within (.of .cpu), within (.of .memory), within (.of .gpus), fun limit found => ?_,
      within .replicas⟩
    obtain ⟨most, declared, rfl⟩ := Option.map_eq_some_iff.mp found
    exact apps most declared

-- The ledger

namespace QuotaLedger

variable {ledger next : QuotaLedger} {ns other : String} {resource : Resource} {amount : Nat}

/-- The ledger shows at least this much of a namespace, as far as its counters go. -/
def Covers (ledger : QuotaLedger) (ns : String) (resource : Resource) (amount : Nat) : Prop :=
  min amount resource.cap ≤ (ledger.used ns).amount resource

theorem amount_charge (perReplica : Resources) (replicas : Nat) (countApp : Bool)
    : ((ledger.charge ns perReplica replicas countApp).used ns).amount resource
      = min ((ledger.used ns).amount resource
          + min (perReplica.amount resource * replicas) resource.cap) resource.cap := by
  rw [used, charge, get_insert_self, Option.getD_some]
  cases resource <;> rfl

theorem used_charge_ne (different : other ≠ ns) (perReplica : Resources) (replicas : Nat)
    (countApp : Bool)
    : (ledger.charge other perReplica replicas countApp).used ns = ledger.used ns := by
  rw [used, charge, get_insert_ne _ _ different]
  rfl

/-- A charge shows in the usage of its own namespace only. -/
theorem Covers.charge (covers : ledger.Covers ns resource amount) (other : String)
    (perReplica : Resources) (replicas : Nat) (countApp : Bool)
    : (ledger.charge other perReplica replicas countApp).Covers ns resource
        (amount + if other = ns then perReplica.amount resource * replicas else 0) := by
  rw [Covers] at covers ⊢
  split
  · rename_i here
    rw [here, amount_charge]
    omega
  · rename_i different
    rw [used_charge_ne different]
    exact covers

/-- What is admitted is charged, and leaves the ledger within the namespace's quota. -/
theorem tryAdmit_eq_ok {perReplica : Resources} {replicas : Nat} {isNewApp : Bool}
    : ledger.tryAdmit ns perReplica replicas isNewApp = .ok next
      ↔ next = ledger.charge ns perReplica replicas isNewApp
        ∧ ∀ quota, ledger.quotas[ns]? = some quota
          → (∀ counter limit, quota.counterLimit counter = some limit
              → ((ledger.charge ns perReplica replicas isNewApp).used ns).counter counter ≤ limit)
            ∧ ∀ limit, quota.maxApps = some limit → isNewApp = true
              → (ledger.used ns).appCount < limit := by
  have charged : (ledger.charge ns perReplica replicas isNewApp).used ns
      = accumulate (ledger.used ns) perReplica replicas isNewApp := by
    rw [used, charge, get_insert_self, Option.getD_some]
  rw [tryAdmit, charged]
  cases ledger.quotas[ns]? with
  | none => simp [@eq_comm _ next]
  | some quota =>
    simp only [Checks.bind_eq_ok, Checks.pure_eq_ok, checkQuota_eq_ok, exists_const,
      Option.some.injEq, forall_eq', @eq_comm _ next]
    exact and_comm

theorem tryAdmit_ok {perReplica : Resources} {replicas : Nat} {isNewApp : Bool}
    (admitted : ledger.tryAdmit ns perReplica replicas isNewApp = .ok next)
    : next = ledger.charge ns perReplica replicas isNewApp
      ∧ ∀ quota limit, ledger.quotas[ns]? = some quota → quota.limit resource = some limit
        → min ((ledger.used ns).amount resource
            + min (perReplica.amount resource * replicas) resource.cap) resource.cap ≤ limit := by
  obtain ⟨charged, within⟩ := tryAdmit_eq_ok.mp admitted
  refine ⟨charged, fun quota limit declared limited => ?_⟩
  rw [← amount_charge perReplica replicas isNewApp]
  exact (within quota declared).1 (.of resource) limit limited

end QuotaLedger

-- What placements take

def amountOf (placements : List Placement) (resource : Resource) : Nat :=
  (placements.map (fun placement => placement.resources.amount resource)).sum

/-- What placements take beyond a request for each. -/
def surplus (requests : Resources) (placements : List Placement) (resource : Resource) : Nat :=
  (placements.map (fun placement =>
    placement.resources.amount resource - requests.amount resource)).sum

/-- What a namespace's committed placements take of a resource. -/
def ScheduledState.committedTotal (desired : ScheduledState) (ns : String) (resource : Resource)
    : Nat :=
  BTreeMap.total (fun appId placements =>
    if appId.ns = ns then amountOf placements resource else 0) desired.scheduling

section

variable {requests : Resources} {placements others : List Placement} {resource : Resource}

theorem amountOf_le_surplus
    : amountOf placements resource
      ≤ requests.amount resource * placements.length + surplus requests placements resource := by
  induction placements with
  | nil => exact Nat.zero_le _
  | cons first rest ih =>
    simp only [amountOf, surplus, List.map_cons, List.sum_cons, List.length_cons, Nat.mul_add_one]
      at ih ⊢
    omega

theorem surplus_eq_zero
    (sized : ∀ placement ∈ placements,
      placement.resources.amount resource ≤ requests.amount resource)
    : surplus requests placements resource = 0 := by
  refine List.sum_eq_zero fun amount listed => ?_
  obtain ⟨placement, among, rfl⟩ := List.mem_map.mp listed
  exact Nat.sub_eq_zero_of_le (sized placement among)

theorem surplus_append
    : surplus requests (placements ++ others) resource
      = surplus requests placements resource + surplus requests others resource := by
  rw [surplus, List.map_append, List.sum_append]
  rfl

end

namespace Pass

variable {pass : Pass} {cache turn : ClusterStateCache} {quotas : QuotaLedger} {app : AppPass}
  {state : PassState} {ns : String} {quota : NamespaceQuota} {resource : Resource}
  {limit amount : Nat} {kept : List Placement} {replicas : Replicas}

-- What an app may hold

/-- What the placements that an app leaves stranded take beyond its request: those that it finds no
room to replace, beside what it keeps.
-/
def strandedSurplus (pass : Pass) (turn : ClusterStateCache) (app : AppPass)
    (kept : List Placement) (resource : Resource)
    : Nat :=
  match (pass.added turn app (.fixed (app.want - kept.length))).unplaced with
  | some unplaced =>
    surplus app.spec.requests
      (stranded (pass.desired.placementsOf app.appId) kept unplaced.missing) resource
  | none => 0

/-- The most that an app may have committed after its turn, if it is admitted: all that it wants at
its request, and what stays stranded at a larger size. One that waits for the nodes of its volumes
has what it had.
-/
def most (pass : Pass) (cache : ClusterStateCache) (app : AppPass) (resource : Resource) : Nat :=
  let requests := app.spec.requests
  let kept := pass.keptOf cache app
  let turn := resizeAll app.appId requests cache kept
  match app.replicas with
  | .daemonSet =>
    requests.amount resource
      * (kept.length + (pass.eligibleNodes turn app.appId app.spec).length)
  | .fixed _ =>
    if kept.isEmpty then
      match pass.homesOf cache app.appId app.spec app.want with
      | .wait _ _ => amountOf (pass.desired.placementsOf app.appId) resource
      | .placed homes =>
        requests.amount resource * app.want
        + pass.strandedSurplus
            (countKeptReplicas (reserveAll cache app.appId requests homes) app.appId homes) app
            homes resource
    else
      requests.amount resource * app.want
      + pass.strandedSurplus (countKeptReplicas turn app.appId (resized requests kept)) app
          (resized requests kept) resource

theorem Fills.most_eq {count : Nat} (fixed : app.replicas = .fixed count)
    (fills : Fills pass cache app turn kept replicas)
    : pass.most cache app resource
      = app.spec.requests.amount resource * app.want
        + pass.strandedSurplus turn app kept resource := by
  cases fills with
  | daemon daemonSet =>
    rw [daemonSet] at fixed
    cases fixed
  | keep _ _ some => simp [most, fixed, some]
  | goHome _ _ none homes found => simp [most, fixed, none, found]

/-- What is kept takes no more than the request, so only what is stranded can. -/
theorem surplus_keptAndStranded {prepared : ClusterStateCache} {count : Nat}
    (planned : pass.Planned prepared app)
    (fixed : app.replicas = .fixed count) (fills : Fills pass cache app turn kept replicas)
    : surplus app.spec.requests (pass.keptAndStranded app kept (pass.added turn app replicas))
        resource
      = pass.strandedSurplus turn app kept resource := by
  have none : surplus app.spec.requests kept resource = 0 := by
    refine surplus_eq_zero fun placement listed => ?_
    rw [(fills.kept_cases planned listed).1]
  rw [(fills.fixed fixed).2, keptAndStranded, strandedSurplus]
  cases (pass.added turn app (.fixed (app.want - kept.length))).unplaced with
  | none => exact none
  | some unplaced => exact surplus_append.trans (by rw [none, Nat.zero_add])

/-- Numbering changes no resources. -/
theorem surplus_numberPlacements {previous held added : List Placement} {requests : Resources}
    (sized : ∀ placement ∈ added, placement.resources = requests)
    : surplus requests (numberPlacements previous held added) resource
      = surplus requests held resource := by
  have none (placements : List Placement)
      (source : ∀ placement ∈ placements, ∃ given ∈ added,
        placement.nodeId = given.nodeId ∧ placement.resources = given.resources)
      : surplus requests placements resource = 0 := by
    refine surplus_eq_zero fun placement listed => ?_
    obtain ⟨given, among, _, same⟩ := source placement listed
    rw [same, sized given among]
  have parts := renumbered previous (held.map (·.ordinal)) added
  have rest : surplus requests (numberRest ((held ++ (renumber previous (held.map (·.ordinal))
      added).1).map (·.ordinal)) (renumber previous (held.map (·.ordinal)) added).2) resource = 0 :=
    none _ fun placement listed => by
      obtain ⟨source, among, same⟩ := mem_numberRest listed
      exact ⟨source, parts.unnumbered source among, same⟩
  rw [surplus, ((numberPlacements_perm previous held added).map _).sum_eq, ← surplus,
    surplus_append, surplus_append, none _ parts.numbered, rest]
  rfl

/-- What a turn decides on is no more than the most the app may hold; by cases on how the app is
filled up. -/
theorem decided_le_most {prepared : ClusterStateCache} (planned : pass.Planned prepared app)
    (fills : Fills pass cache app turn kept replicas)
    : amountOf (pass.decided turn app kept replicas) resource ≤ pass.most cache app resource := by
  have bound := @amountOf_le_surplus app.spec.requests (pass.decided turn app kept replicas)
    resource
  have sized := @surplus_numberPlacements resource (pass.desired.placementsOf app.appId)
    (pass.keptAndStranded app kept (pass.added turn app replicas))
    (pass.added turn app replicas).placements app.spec.requests
    fun placement listed => (added_cases listed).1
  cases size : app.replicas with
  | fixed count =>
    have few := Nat.mul_le_mul_left (app.spec.requests.amount resource)
      (length_decided_le size fills)
    have larger := @surplus_keptAndStranded _ _ _ _ resource _ _ _ _ planned size fills
    rw [fills.most_eq size]
    rw [decided] at bound few ⊢
    omega
  | daemonSet =>
    cases fills with
    | daemon _ =>
      have none : surplus app.spec.requests
          (resized app.spec.requests (pass.keptOf cache app)) resource = 0 := by
        refine surplus_eq_zero fun placement listed => ?_
        obtain ⟨_, _, rfl⟩ := List.mem_map.mp listed
        exact Nat.le_refl _
      have copies : (pass.decided (resizeAll app.appId app.spec.requests cache
            (pass.keptOf cache app)) app
          (resized app.spec.requests (pass.keptOf cache app)) .daemonSet).length
          = (pass.keptOf cache app).length + (pass.eligibleNodes (resizeAll app.appId
              app.spec.requests cache (pass.keptOf cache app)) app.appId app.spec).length := by
        rw [decided, length_numberPlacements]
        show (resized _ _).length + (List.mapIdx _ _).length = _
        rw [resized, List.length_map, List.length_mapIdx]
        rfl
      rw [most]
      simp only [size]
      rw [copies, decided, sized] at bound
      rw [decided]
      exact bound.trans (Nat.le_of_eq (congrArg _ none))
    | keep count fixed some =>
      rw [size] at fixed
      cases fixed
    | goHome count fixed none homes found =>
      rw [size] at fixed
      cases fixed

-- The admitted apps

/-- Whether an app that isn't converged is admitted at its turn. -/
def admits (pass : Pass) (cache : ClusterStateCache) (quotas : QuotaLedger) (app : AppPass)
    : Bool :=
  !app.converged && (pass.admitApp (pass.stateAt cache quotas app.appId).quotas app).isOk

/-- The apps of a namespace that a pass admits. -/
def admittedIn (pass : Pass) (cache : ClusterStateCache) (quotas : QuotaLedger) (ns : String)
    : List AppPass :=
  (pass.planned (pass.prepare cache)).filter (fun app =>
    decide (app.appId.ns = ns) && pass.admits cache quotas app)

/-- What the other apps of a namespace have committed: those that are converged or rejected, and
those that are no longer desired. -/
def heldElsewhere (pass : Pass) (cache : ClusterStateCache) (quotas : QuotaLedger) (ns : String)
    (resource : Resource)
    : Nat :=
  BTreeMap.total (fun appId placements =>
    if appId.ns = ns ∧ (pass.admittedIn cache quotas ns).all (·.appId != appId) then
      amountOf placements resource
    else 0) pass.desired.scheduling

/-- What the admitted apps of a namespace may hold fits beside what its other apps have committed,
within the limit or what was committed before. -/
def Within (pass : Pass) (cache : ClusterStateCache) (quotas : QuotaLedger) (ns : String)
    (resource : Resource) (limit : Nat)
    : Prop :=
  pass.heldElsewhere cache quotas ns resource
    + ((pass.admittedIn cache quotas ns).map (fun app =>
        pass.most (pass.stateAt cache quotas app.appId).cache app resource)).sum
  ≤ max limit (pass.desired.committedTotal ns resource)

instance (pass : Pass) (cache : ClusterStateCache) (quotas : QuotaLedger) (ns : String)
    (resource : Resource) (limit : Nat)
    : Decidable (pass.Within cache quotas ns resource limit) :=
  inferInstanceAs (Decidable (_ ≤ _))

theorem admits_iff
    : pass.admits cache quotas app = true
      ↔ app.converged = false
        ∧ ∃ ledger,
          pass.admitApp (pass.stateAt cache quotas app.appId).quotas app = .ok ledger := by
  rw [admits, Bool.and_eq_true, Bool.not_eq_true']
  refine and_congr_right fun _ => ?_
  cases pass.admitApp (pass.stateAt cache quotas app.appId).quotas app with
  | error refused => simp [Except.isOk, Except.toBool]
  | ok ledger => simp [Except.isOk, Except.toBool]

end Pass

-- The committed totals

variable {decisions : List SchedulingDecision} {desired : ScheduledState}

theorem commitAll_absent {appId : AppId} (absent : ∀ decision ∈ decisions, decision.appId ≠ appId)
    : (desired.commitAll decisions).scheduling[appId]? = desired.scheduling[appId]? := by
  rw [DesiredState.scheduling_commitAll]
  exact get_foldl_insert_of_absent absent _

theorem commitAll_present {appId : AppId} {placements : List Placement}
    (present : ∃ decision ∈ decisions, decision.appId = appId)
    (found : (desired.commitAll decisions).scheduling[appId]? = some placements)
    : ∃ decision ∈ decisions, decision.appId = appId ∧ decision.placements = placements := by
  rw [DesiredState.scheduling_commitAll] at found
  obtain ⟨decision, listed, same, last⟩ := @get_foldl_insert_of_mem _ _ _ _ _ _
    (fun decision : SchedulingDecision => decision.appId) (fun decision => decision.placements) _ _
    present desired.scheduling
  rw [last] at found
  exact ⟨decision, listed, same, Option.some.inj found⟩

namespace Pass

variable {pass : Pass} {cache : ClusterStateCache} {quotas : QuotaLedger} {app : AppPass}
  {ns : String} {resource : Resource} {appId : AppId} {placements : List Placement}

/-- An admitted app that nothing is decided for has no more than it may hold: it waits, or what it
has is what would be decided. -/
theorem undecided_le_most (listed : app ∈ pass.planned (pass.prepare cache))
    (admitted : pass.admits cache quotas app = true)
    (undecided : ∀ decision ∈ (pass.finish cache quotas).decisions,
      decision.appId ≠ app.appId)
    : amountOf (pass.desired.placementsOf app.appId) resource
      ≤ pass.most (pass.stateAt cache quotas app.appId).cache app resource := by
  obtain ⟨before, after, turns⟩ := List.append_of_mem listed
  obtain ⟨pending, ledger, accepted⟩ := admits_iff.mp admitted
  have planned := planned_of_turns turns
  have later := @run_decisions pass after
    (pass.step (pass.stateAt cache quotas app.appId) app)
  have turn := step_turn pass (pass.stateAt cache quotas app.appId) app
  have final : pass.finish cache quotas
      = after.foldl pass.step (pass.step (pass.stateAt cache quotas app.appId) app) := by
    rw [finish, turns, stateAt_eq turns, List.foldl_append, List.foldl_cons]
  rw [← final] at later
  generalize pass.step (pass.stateAt cache quotas app.appId) app = next at turn later
  cases turn with
  | converged done =>
    rw [done] at pending
    cases pending
  | blocked _ refused rejected =>
    rw [rejected] at accepted
    cases accepted
  | waits _ _ _ count fixed none node reason found =>
    rw [most]
    simp only [fixed, none, found, List.isEmpty_nil, if_true]
    exact Nat.le_refl _
  | @fills _ _ _ turn kept replicas fills =>
    obtain ⟨news, decisions, _⟩ := later
    rw [fill_decisions] at decisions
    split at decisions
    · rename_i same
      have decided := @decided_le_most pass _ _ _ resource _ _ _ planned fills
      rw [samePlacements, beq_iff_eq] at same
      rw [← same] at decided
      rw [amountOf, ← ((byOrdinal_perm _).map _).sum_eq]
      exact decided
    · refine absurd rfl (undecided ⟨app.appId, pass.decided turn app kept replicas⟩ ?_)
      rw [decisions]
      simp

/-- What an app has committed after a pass: no more than it may hold if it was admitted, and what
it had before otherwise. -/
theorem final_cases (resource : Resource)
    (found : (pass.desired.commitAll (pass.finish cache quotas).decisions).scheduling[appId]?
      = some placements)
    : (∃ app ∈ pass.planned (pass.prepare cache),
        app.appId = appId
        ∧ pass.admits cache quotas app = true
        ∧ amountOf placements resource
          ≤ pass.most (pass.stateAt cache quotas app.appId).cache app resource)
      ∨ (∀ app ∈ pass.planned (pass.prepare cache),
          pass.admits cache quotas app = true → app.appId ≠ appId)
        ∧ pass.desired.scheduling[appId]? = some placements := by
  by_cases decides : ∃ decision ∈ (pass.finish cache quotas).decisions, decision.appId = appId
  · obtain ⟨decision, listed, rfl, rfl⟩ := commitAll_present decides found
    rcases run_decision (step_filledAt pass) listed with none |
        ⟨before, app, after, turns, _, _, _, _, filled⟩
    · cases none
    have planned := planned_of_turns turns
    rw [← stateAt_eq turns] at filled
    refine .inl ⟨app, turns ▸ List.mem_append_right _ List.mem_cons_self, ?_,
      admits_iff.mpr ⟨filled.pending, _, filled.admitted⟩, ?_⟩
    · rw [filled.made]
    · rw [filled.made]
      exact decided_le_most planned filled.fills
  push Not at decides
  rw [commitAll_absent decides] at found
  by_cases admitted : ∃ app ∈ pass.planned (pass.prepare cache),
      app.appId = appId ∧ pass.admits cache quotas app = true
  · obtain ⟨app, listed, rfl, admitted⟩ := admitted
    refine .inl ⟨app, listed, rfl, admitted, ?_⟩
    have own : pass.desired.placementsOf app.appId = placements := by
      rw [ScheduledState.placementsOf, found]
      rfl
    rw [← own]
    exact undecided_le_most listed admitted decides
  · push Not at admitted
    exact .inr ⟨fun app listed admits same => admitted app listed same admits, found⟩

/-- After a pass a namespace has no more committed than its other apps had and its admitted ones
may hold. -/
theorem committedTotal_le (pass : Pass) (cache : ClusterStateCache) (quotas : QuotaLedger)
    (ns : String) (resource : Resource)
    : (pass.desired.commitAll (pass.finish cache quotas).decisions).committedTotal ns resource
      ≤ pass.heldElsewhere cache quotas ns resource
        + ((pass.admittedIn cache quotas ns).map (fun app =>
            pass.most (pass.stateAt cache quotas app.appId).cache app resource)).sum := by
  have items := @total_le_sum_of_items AppId (List Placement) (AppId × Nat) _ _ _
    (pass.desired.commitAll (pass.finish cache quotas).decisions).scheduling
    (pass.desired.scheduling.toList.map (fun entry => (entry.1,
        if entry.1.ns = ns ∧ (pass.admittedIn cache quotas ns).all (·.appId != entry.1) then
          amountOf entry.2 resource
        else 0))
      ++ (pass.admittedIn cache quotas ns).map (fun app => (app.appId,
          pass.most (pass.stateAt cache quotas app.appId).cache app resource)))
    Prod.fst (fun appId placements => if appId.ns = ns then amountOf placements resource else 0)
    Prod.snd fun appId placements found => ?_
  · rw [List.map_append, List.sum_append, List.map_map, List.map_map] at items
    exact items
  · by_cases inside : appId.ns = ns
    · right
      rw [if_pos inside]
      rcases final_cases resource found with
        ⟨app, listed, rfl, admitted, bounded⟩ | ⟨others, before⟩
      · refine ⟨_, List.mem_append_right _ (List.mem_map_of_mem (List.mem_filter.mpr
          ⟨listed, ?_⟩)), rfl, bounded⟩
        rw [admitted, decide_eq_true inside, Bool.and_self]
      · refine ⟨_, List.mem_append_left _ (List.mem_map_of_mem (mem_toList.mpr before)), rfl, ?_⟩
        rw [if_pos]
        refine ⟨inside, List.all_eq_true.mpr fun app listed => bne_iff_ne.mpr ?_⟩
        obtain ⟨among, chosen⟩ := List.mem_filter.mp listed
        exact others app among (Bool.and_eq_true_iff.mp chosen).2
    · exact .inl (if_neg inside)

-- The ledger's view

variable {quota : NamespaceQuota} {limit amount : Nat} {prepared : ClusterStateCache}

def AppPass.charge (app : AppPass) (resource : Resource) : Nat :=
  app.spec.requests.amount resource * app.want

theorem quotas_nonempty (declared : quotas.quotas[ns]? = some quota)
    : quotas.quotas.isEmpty = false := by
  rw [← Bool.not_eq_true, Std.ExtTreeMap.isEmpty_iff]
  intro none
  rw [none] at declared
  simp at declared

theorem admitApp_ok {next : QuotaLedger} (declared : quotas.quotas[ns]? = some quota)
    (limited : quota.limit resource = some limit) (below : limit < resource.cap)
    (covers : quotas.Covers ns resource amount)
    (admitted : pass.admitApp quotas app = .ok next)
    : next.quotas = quotas.quotas
      ∧ next.Covers ns resource (amount + if app.appId.ns = ns then app.charge resource else 0)
      ∧ (app.appId.ns = ns → amount + app.charge resource ≤ limit) := by
  rw [admitApp, quotas_nonempty declared, if_neg Bool.false_ne_true] at admitted
  obtain ⟨rfl, within⟩ := @QuotaLedger.tryAdmit_ok _ _ _ resource _ _ _ admitted
  refine ⟨rfl, covers.charge _ _ _ _, ?_⟩
  rintro rfl
  have room := within quota limit declared limited
  rw [QuotaLedger.Covers] at covers
  rw [AppPass.charge]
  omega

def convergedTotal (planned : List AppPass) (ns : String) (resource : Resource) : Nat :=
  ((planned.filter (fun app => app.converged && decide (app.appId.ns = ns))).map
    (·.charge resource)).sum

theorem convergedTotal_cons (app : AppPass) (rest : List AppPass)
    : convergedTotal (app :: rest) ns resource
      = (if app.converged = true ∧ app.appId.ns = ns then app.charge resource else 0)
        + convergedTotal rest ns resource := by
  by_cases counted : app.converged = true ∧ app.appId.ns = ns <;> simp [convergedTotal, counted]

/-- The ledger starts with what the converged apps take. -/
theorem seedQuotas_covers (planned : List AppPass) (some : quotas.quotas.isEmpty = false)
    : (seedQuotas planned quotas).quotas = quotas.quotas
      ∧ (seedQuotas planned quotas).Covers ns resource (convergedTotal planned ns resource) := by
  have charging (apps : List AppPass) (ledger : QuotaLedger) (amount : Nat)
      (covers : ledger.Covers ns resource amount)
      : let charged := (apps.filter (·.converged)).foldl (fun ledger app =>
          ledger.chargeCommitted app.appId.ns app.spec.requests app.want) ledger
        charged.quotas = ledger.quotas
        ∧ charged.Covers ns resource (amount + convergedTotal apps ns resource) := by
    induction apps generalizing ledger amount with
    | nil => exact ⟨rfl, covers⟩
    | cons app rest ih =>
      rw [convergedTotal_cons, ← Nat.add_assoc]
      by_cases converged : app.converged = true
      · rw [List.filter_cons_of_pos converged, List.foldl_cons]
        simp only [converged, true_and]
        exact ih _ _ (covers.charge app.appId.ns app.spec.requests app.want true)
      · rw [List.filter_cons_of_neg converged, if_neg (converged ·.1)]
        exact ih ledger amount covers
  rw [seedQuotas, some, if_neg Bool.false_ne_true]
  have start : quotas.Covers ns resource 0 := by
    rw [QuotaLedger.Covers, Nat.zero_min]
    exact Nat.zero_le _
  have charged := charging planned quotas 0 start
  rwa [Nat.zero_add] at charged

/-- What the converged apps of a namespace and some admitted ones are charged with. -/
def chargedTotal (planned admitted : List AppPass) (ns : String) (resource : Resource) : Nat :=
  convergedTotal planned ns resource + (admitted.map (·.charge resource)).sum

/-- The ledger shows what the converged apps of a namespace and those admitted so far are charged
with, and that is within the limit once one was admitted. -/
structure Shown (planned admitted : List AppPass) (ns : String) (quota : NamespaceQuota)
    (resource : Resource) (limit : Nat) (ledger : QuotaLedger)
    : Prop where
  declared : ledger.quotas[ns]? = some quota
  covers : ledger.Covers ns resource (chargedTotal planned admitted ns resource)
  within : admitted = [] ∨ chargedTotal planned admitted ns resource ≤ limit

theorem Shown.admit {planned admitted : List AppPass} {ledger next : QuotaLedger}
    (shown : Shown planned admitted ns quota resource limit ledger)
    (limited : quota.limit resource = some limit) (below : limit < resource.cap)
    (accepted : pass.admitApp ledger app = .ok next)
    : Shown planned (if app.appId.ns = ns then admitted ++ [app] else admitted) ns quota resource
        limit next := by
  obtain ⟨same, covered, fits⟩ := admitApp_ok shown.declared limited below shown.covers accepted
  have declared := (congrArg (·[ns]?) same).trans shown.declared
  by_cases inside : app.appId.ns = ns
  · have more : chargedTotal planned (admitted ++ [app]) ns resource
        = chargedTotal planned admitted ns resource + app.charge resource := by
      simp [chargedTotal, Nat.add_assoc]
    rw [if_pos inside] at covered ⊢
    rw [← more] at covered
    exact ⟨declared, covered, .inr (more ▸ fits inside)⟩
  · rw [if_neg inside] at covered ⊢
    exact ⟨declared, covered, shown.within⟩

/-- The ledger shows what it is charged with after any number of turns; by induction on the turns.
-/
theorem run_shown (declared : quotas.quotas[ns]? = some quota)
    (limited : quota.limit resource = some limit) (below : limit < resource.cap)
    (before after : List AppPass) (turns : pass.planned (pass.prepare cache) = before ++ after)
    : Shown (pass.planned (pass.prepare cache))
        (before.filter (fun app => decide (app.appId.ns = ns) && pass.admits cache quotas app)) ns
        quota resource limit (before.foldl pass.step (pass.begin cache quotas)).quotas := by
  induction before using List.reverseRecOn generalizing after with
  | nil =>
    obtain ⟨same, covers⟩ := @seedQuotas_covers quotas ns resource
      (pass.planned (pass.prepare cache)) (quotas_nonempty declared)
    exact ⟨(congrArg (·[ns]?) same).trans declared, covers, .inl rfl⟩
  | append_singleton before app ih =>
    rw [List.append_assoc] at turns
    have shown := ih (app :: after) turns
    rw [← stateAt_eq turns] at shown
    have admits : pass.admits cache quotas app = true
        ↔ app.converged = false
          ∧ ∃ ledger, pass.admitApp (pass.stateAt cache quotas app.appId).quotas app = .ok ledger :=
      admits_iff
    rw [List.foldl_append, List.foldl_cons, List.foldl_nil, ← stateAt_eq turns, List.filter_append,
      List.filter_singleton]
    have turn := step_turn pass (pass.stateAt cache quotas app.appId) app
    generalize pass.step (pass.stateAt cache quotas app.appId) app = next at turn
    cases turn with
    | converged done =>
      rw [done] at admits
      simpa [show pass.admits cache quotas app = false by simpa using admits] using shown
    | blocked pending refused rejected =>
      rw [rejected] at admits
      simpa [show pass.admits cache quotas app = false by simpa using admits] using shown
    | waits pending ledger accepted | fills pending ledger accepted =>
      have charged := shown.admit limited below accepted
      rw [admits.mpr ⟨pending, ledger, accepted⟩, Bool.and_true]
      by_cases inside : app.appId.ns = ns
      · rw [if_pos inside] at charged
        rw [decide_eq_true inside]
        exact charged
      · rw [if_neg inside] at charged
        rw [decide_eq_false inside, cond_false, List.append_nil]
        exact charged

/-- A converged app takes what it is charged with. -/
theorem converged_amount {appId : AppId} {spec : WorkloadSpec} {placements : List Placement}
    (known : pass.desired.scheduling[appId]? = some placements)
    (converged : pass.isConverged prepared appId spec = true)
    : amountOf placements resource ≤ (pass.planApp prepared appId spec).charge resource := by
  rw [isConverged, known, Option.any_some, Bool.and_eq_true, beq_iff_eq, List.all_eq_true]
    at converged
  obtain ⟨length, each⟩ := converged
  show _ ≤ spec.requests.amount resource * (pass.wants prepared appId spec).1
  rw [← length]
  refine (@amountOf_le_surplus spec.requests placements resource).trans ?_
  rw [surplus_eq_zero fun placement listed => ?_]
  · exact Nat.le_refl _
  · have same := (Bool.and_eq_true_iff.mp (each placement listed)).1
    rw [beq_iff_eq.mp same]

/-- Placements that the ledger isn't charged for: their app is neither converged nor admitted. -/
def Uncharged (pass : Pass) (cache : ClusterStateCache) (quotas : QuotaLedger) (appId : AppId)
    : Prop :=
  pass.desired.placementsOf appId ≠ []
  ∧ ∀ app ∈ pass.planned (pass.prepare cache),
      app.appId = appId → app.converged = false ∧ pass.admits cache quotas app = false

/-- What isn't admitted is charged as converged, as far as everything is charged. -/
theorem heldElsewhere_le
    (charged : ∀ appId, appId.ns = ns → ¬ pass.Uncharged cache quotas appId)
    : pass.heldElsewhere cache quotas ns resource
      ≤ convergedTotal (pass.planned (pass.prepare cache)) ns resource := by
  have items := @total_le_sum_of_items AppId (List Placement) (AppId × Nat) _ _ _
    pass.desired.scheduling
    (((pass.planned (pass.prepare cache)).filter (fun app =>
        app.converged && decide (app.appId.ns = ns))).map (fun app =>
          (app.appId, app.charge resource)))
    Prod.fst (fun appId placements =>
      if appId.ns = ns ∧ (pass.admittedIn cache quotas ns).all (·.appId != appId) then
        amountOf placements resource
      else 0)
    Prod.snd fun appId placements found => ?_
  · rw [List.map_map] at items
    exact items
  split
  · rename_i other
    obtain ⟨inside, apart⟩ := other
    cases placements with
    | nil => exact .inl rfl
    | cons first rest =>
      have committed : pass.desired.placementsOf appId ≠ [] := by
        rw [ScheduledState.placementsOf, found]
        simp
      have known := charged appId inside
      rw [Uncharged, not_and] at known
      have settled := known committed
      push Not at settled
      obtain ⟨app, listed, rfl, done⟩ := settled
      have converged : app.converged = true := by
        by_contra pending
        have admitted := done (Bool.not_eq_true _ ▸ pending)
        have chosen := List.all_eq_true.mp apart app (List.mem_filter.mpr ⟨listed, by
          rw [decide_eq_true inside, Bool.true_and]
          simpa using admitted⟩)
        simp at chosen
      have planned := planned_of_mem listed
      refine .inr ⟨_, List.mem_map_of_mem (List.mem_filter.mpr ⟨listed, ?_⟩), rfl, ?_⟩
      · rw [converged, decide_eq_true inside, Bool.and_self]
      · have made := planned.made
        rw [made]
        refine converged_amount found ?_
        rw [← converged]
        exact (congrArg AppPass.converged made).symm
  · exact .inl rfl

/-- Where the condition fails, the ledger is blind to something committed, an admitted app may hold
more than it is charged with, or the limit is the counter's largest value. -/
theorem within_of_charged (declared : quotas.quotas[ns]? = some quota)
    (limited : quota.limit resource = some limit) (below : limit < resource.cap)
    (charged : ∀ appId, appId.ns = ns → ¬ pass.Uncharged cache quotas appId)
    (paid : ∀ app ∈ pass.admittedIn cache quotas ns,
      pass.most (pass.stateAt cache quotas app.appId).cache app resource ≤ app.charge resource)
    : pass.Within cache quotas ns resource limit := by
  obtain ⟨_, _, none | fits⟩ := run_shown declared limited below _ [] (List.append_nil _).symm
  · rw [Within, show pass.admittedIn cache quotas ns = [] from none, List.map_nil, List.sum_nil,
      Nat.add_zero]
    refine (total_le_sum_of_items Prod.fst fun appId placements found => ?_).trans
      (Nat.le_max_right _ _)
    split
    · rename_i inside
      exact .inr ⟨(appId, placements), mem_toList.mpr found, rfl,
        Nat.le_of_eq (if_pos inside.1).symm⟩
    · exact .inl rfl
  · have sums := List.sum_le_sum paid
    have elsewhere := @heldElsewhere_le pass cache quotas ns resource charged
    rw [Within]
    refine (Nat.add_le_add elsewhere sums).trans (le_trans ?_ (Nat.le_max_left _ _))
    exact fits

end Pass

def apiApp : AppId := ⟨"api", "prod"⟩

def opsApp : AppId := ⟨"ops", "ops"⟩

def tenMillicores : Fin u64Size := ⟨10, by decide⟩

def largestLimit : Fin u64Size := ⟨u64Size - 1, by decide⟩

def prodLimit (limit : Fin u64Size) : QuotaLedger where
  quotas := (∅ : BTreeMap String NamespaceQuota).insert "prod" { maxCpuMillicores := some limit }

def cpuApp (replicas : Replicas) (cpu : Nat) : WorkloadSpec where
  replicas := replicas
  cpu := some ⟨cpu, cpu⟩

/-- A new app beside one that runs one of the two replicas it wants. -/
def growingBesideNew : ScheduledState where
  apps := ((∅ : BTreeMap AppId WorkloadSpec).insert apiApp (cpuApp (.fixed 1) 8)).insert webApp
    (cpuApp (.fixed 2) 8)
  scheduling := (∅ : BTreeMap AppId (List Placement)).insert webApp [⟨"n", ⟨8, 0, 0⟩, 0⟩]

def shrunkAndLost : ScheduledState where
  apps := (∅ : BTreeMap AppId WorkloadSpec).insert webApp (cpuApp (.fixed 2) 5)
  scheduling := (∅ : BTreeMap AppId (List Placement)).insert webApp [⟨"lost", ⟨8, 0, 0⟩, 0⟩]

/-- A new app beside placements of an app that is no longer desired. -/
def newBesideLeftover : ScheduledState where
  apps := (∅ : BTreeMap AppId WorkloadSpec).insert apiApp (cpuApp (.fixed 1) 8)
  scheduling := (∅ : BTreeMap AppId (List Placement)).insert webApp [⟨"n", ⟨8, 0, 0⟩, 0⟩]

/-- A daemon set with a copy on `n`, where an app of another namespace shrinks. -/
def daemonBesideShrinking : ScheduledState where
  apps := ((∅ : BTreeMap AppId WorkloadSpec).insert opsApp (cpuApp (.fixed 1) 1)).insert webApp
    (cpuApp .daemonSet 5)
  scheduling := ((∅ : BTreeMap AppId (List Placement)).insert opsApp
    [⟨"n", ⟨8, 0, 0⟩, 0⟩]).insert webApp [⟨"n", ⟨5, 0, 0⟩, 0⟩]

/-- Two replicas that each ask for half of the largest counter. -/
def halfAndHalf : ScheduledState where
  apps := (∅ : BTreeMap AppId WorkloadSpec).insert webApp (cpuApp (.fixed 2) (2 ^ 63))

/-- A pass takes `prod` beyond a CPU limit and beyond what was committed. -/
def ExceedsLimit (cache : ClusterStateCache) (desired : ScheduledState) (members : PassMembers)
    (limit : Fin u64Size)
    : Prop :=
  max limit.val (desired.committedTotal "prod" .cpu)
    < (desired.commitAll
        (planPass cache desired members (prodLimit limit) false).decisions).committedTotal
        "prod" .cpu

instance (cache : ClusterStateCache) (desired : ScheduledState) (members : PassMembers)
    (limit : Fin u64Size)
    : Decidable (ExceedsLimit cache desired members limit) :=
  inferInstanceAs (Decidable (_ < _))

/-- Beside a converged app and the placement of one that is no longer desired, an app is scaled up
with a smaller request. -/
def shrinkingUp : ScheduledState where
  apps := ((∅ : BTreeMap AppId WorkloadSpec).insert apiApp (cpuApp (.fixed 2) 3)).insert webApp
    (cpuApp (.fixed 1) 2)
  scheduling := (((∅ : BTreeMap AppId (List Placement)).insert apiApp
    [⟨"n", ⟨4, 0, 0⟩, 0⟩]).insert webApp [⟨"m", ⟨2, 0, 0⟩, 0⟩]).insert ⟨"old", "prod"⟩
    [⟨"m", ⟨1, 0, 0⟩, 0⟩]

end Reliaburger
