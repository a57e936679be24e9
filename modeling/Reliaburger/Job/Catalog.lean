import Reliaburger.Config.Validate

/-! Durable job definitions and the provenance of the runs they admitted. `prepare` decides one
job transaction on a candidate copy; the store publishes the copy only when the rest of the
admission passes too. What a prepared transaction tells about the catalog it was prepared on.
-/

namespace Reliaburger

/-- Most reusable definitions the cluster holds. -/
def maxJobDefinitions : Nat := 1024

def maxJobDefinitionsPerNamespace : Nat := 64

def maxJobRuns : Nat := 2048

/-- Most finished runs one definition remembers. -/
def maxDefinitionHistory : Nat := 10

/-- One past the largest signed 64-bit number. -/
def i64Size : Nat := 2 ^ 63

/-- Stable source identity of one requested run. -/
inductive RunTrigger where
  | manual (requestId : String)
  | hook (operationId : String)
  | cron (minute : Int)
deriving DecidableEq, Repr

namespace RunTrigger

def validate : RunTrigger → Except JobError Unit
  | manual id | hook id =>
    if validIdentity id then .ok ()
    else
      .error (.reason
        "run trigger identity must contain 1–128 bytes without control characters")
  | cron minute =>
    if minute < 0 then .error (.reason "cron occurrence precedes the epoch") else .ok ()

def isCron : RunTrigger → Bool
  | cron _ => true
  | _ => false

end RunTrigger

/-- Why a claimed occurrence didn't run. -/
inductive SkipReason where
  | capacity
deriving DecidableEq, Repr

/-- A matching cron minute that was claimed but not run. -/
structure SkippedOccurrence where
  minute : Int
  reason : SkipReason
deriving DecidableEq, Repr

structure RunOutcome where
  run : Nat
  startedAtEpochSecs : Nat
  finishedAtEpochSecs : Nat
  status : TaskArrayStatus
  succeeded : Nat
  failed : Nat
  notRun : Nat
  firstFailedIndex : Option Nat
deriving DecidableEq, Repr

/-- An admitted definition revision and its cursor, retained independently of results. -/
structure DefinitionRecord where
  definition : JobDefinition
  revision : Nat
  /-- Latest processed UTC minute, including a deliberately skipped overlap. -/
  lastObservedMinute : Option Int
  skipped : Option SkippedOccurrence
  skippedCount : Nat
  /-- The newest finished runs, oldest first. -/
  history : List RunOutcome
deriving DecidableEq

/-- Immutable provenance of an admitted run; its execution snapshot lives in the array. -/
structure RunRecord where
  name : String
  ns : String
  revision : Nat
  trigger : RunTrigger
  definitionDigest : String
  replayUnknown : Bool
  /-- Owners whose outcome needs positive evidence or acknowledged replay. -/
  unknownOwners : BTreeSet NodeId
deriving DecidableEq

inductive JobWrite where
  | put (name ns : String) (definition : JobDefinition) (trigger : Option RunTrigger)
      (nowEpochSecs : Nat)
  | fire (name ns : String) (revision : Nat) (minute : Int) (nowEpochSecs : Nat)
deriving DecidableEq

namespace JobWrite

def name : JobWrite → String
  | put name _ _ _ _ => name
  | fire name _ _ _ _ => name

def ns : JobWrite → String
  | put _ ns _ _ _ => ns
  | fire _ ns _ _ _ => ns

def nowEpochSecs : JobWrite → Nat
  | put _ _ _ _ now => now
  | fire _ _ _ _ now => now

def operation : JobWrite → Option String
  | put _ _ _ (some (.hook operationId)) _ => some operationId
  | _ => none

end JobWrite

/-- Definitions by `ns/name`, and the provenance of retained runs by batch id. -/
structure JobCatalog where
  definitions : BTreeMap String DefinitionRecord := ∅
  runs : BTreeMap Nat RunRecord := ∅
deriving DecidableEq

inductive JobPlan where
  | register (definition : JobDefinition) (run : RunRecord) (nowEpochSecs : Nat)
  | existing (batchId : Nat)
  | recorded
deriving DecidableEq

def definitionKey (ns name : String) : String :=
  ns ++ "/" ++ name

def validateKey (ns name : String) : Except JobError Unit :=
  if validWorkloadLabel ns && validWorkloadLabel name then .ok ()
  else .error (.reason "job name and namespace must be DNS labels")

def nextRevision (revision : Nat) : Except JobError Nat :=
  match checkedAdd revision 1 with
  | some next => .ok next
  | none => .error (.reason "job definition revision exhausted")

/-- The minute of a time, as a signed 64-bit number. -/
def minuteOf (nowEpochSecs : Nat) : Except JobError Int :=
  if nowEpochSecs / 60 < i64Size then .ok ((nowEpochSecs / 60 : Nat) : Int)
  else .error (.reason "cron time out of range")

def laterMinute : Option Int → Option Int → Option Int
  | none, other => other
  | some minute, none => some minute
  | some minute, some other => some (max minute other)

namespace DefinitionRecord

/-- The record a put leaves: new content and revision, with the prior record's memory. -/
def revise (prior : Option DefinitionRecord) (definition : JobDefinition) (revision : Nat)
    (baseline : Option Int)
    : DefinitionRecord where
  definition := definition
  revision := revision
  lastObservedMinute := laterMinute (prior.bind (·.lastObservedMinute)) baseline
  skipped := prior.bind (·.skipped)
  skippedCount := (prior.map (·.skippedCount)).getD 0
  history := (prior.map (·.history)).getD []

/-- Remember how a run ended, dropping the oldest outcome once the history is full. -/
def remember (record : DefinitionRecord) (outcome : RunOutcome) : DefinitionRecord :=
  if record.history.any (fun known => known.run == outcome.run) then record
  else
    let history := record.history ++ [outcome]
    { record with history := history.drop (history.length - maxDefinitionHistory) }

/-- Count an occurrence that was claimed but had no room. -/
def skip (record : DefinitionRecord) (minute : Int) : DefinitionRecord :=
  { record with
    skipped := some { minute, reason := .capacity }
    skippedCount := saturatingAdd record.skippedCount 1 }

end DefinitionRecord

namespace JobCatalog

open Checks

variable (catalog : JobCatalog)

def definition (ns name : String) : Option DefinitionRecord :=
  catalog.definitions[definitionKey ns name]?

/-- Change a definition that exists; leave the catalog alone when it doesn't. -/
def modify (ns name : String) (change : DefinitionRecord → DefinitionRecord) : JobCatalog :=
  match catalog.definition ns name with
  | none => catalog
  | some record =>
    { catalog with
      definitions := catalog.definitions.insert (definitionKey ns name) (change record) }

/-- Disable a definition's schedule; forget the definition altogether if asked. -/
def stop (ns name : String) (forget : Bool) : Except JobError JobCatalog :=
  match catalog.definition ns name with
  | none => .error (.reason "unknown job definition")
  | some record => do
      let stopped ←
        if record.definition.cron.isSome then do
          let revision ← nextRevision record.revision
          pure { record with revision, definition := { record.definition with cron := none } }
        else pure record
      let key := definitionKey ns name
      let definitions := catalog.definitions.insert key stopped
      return { catalog with definitions := if forget then definitions.erase key else definitions }

/-- Record that the occurrence at `minute` was claimed but had no room. -/
def recordSkip (ns name : String) (minute : Int) : JobCatalog :=
  catalog.modify ns name (·.skip minute)

def recordOutcome (ns name : String) (outcome : RunOutcome) : JobCatalog :=
  catalog.modify ns name (·.remember outcome)

/-- Whether a retained run belongs to the job. -/
def referenced (ns name : String) : Bool :=
  catalog.runs.toList.any (fun entry => entry.2.ns == ns && entry.2.name == name)

/-- A one-off definition that no retained run and no owner refers to. -/
def expiredOneOff (owned : String → String → Bool) (key : String) (record : DefinitionRecord)
    : Bool :=
  match splitKey key with
  | none => false
  | some (ns, name) =>
    !record.definition.isLasting && !catalog.referenced ns name && !owned ns name

/-- Drop one-off definitions that no retained run refers to. -/
def expireOneOff (owned : String → String → Bool) : JobCatalog :=
  { catalog with
    definitions :=
      catalog.definitions.filter (fun key record => !catalog.expiredOneOff owned key record) }

/-- Definitions held in a namespace: the keys from its first possible one on that start with
the namespace. -/
def definitionsIn (ns : String) : Nat :=
  let start := ns ++ "/"
  let fromStart := catalog.definitions.toList.dropWhile (fun entry => entry.1 < start)
  (fromStart.takeWhile (fun entry => start.toList.isPrefixOf entry.1.toList)).length

/-- Keep the provenance of the runs whose execution state is retained. -/
def retainRuns (retained : Nat → Bool) : JobCatalog :=
  { catalog with runs := catalog.runs.filter (fun id _ => retained id) }

def recordRun (id : Nat) (run : RunRecord) : JobCatalog :=
  { catalog with runs := catalog.runs.insert id run }

-- Preparing a transaction

def triggered (name ns : String) (trigger : RunTrigger) : Option (Nat × RunRecord) :=
  catalog.runs.toList.find? (fun entry =>
    entry.2.name == name && entry.2.ns == ns && entry.2.trigger == trigger)

/-- Whether an active run of the job has an owner with an unknown outcome. -/
def unknownOwned (name ns : String) (active : List Nat) : Bool :=
  catalog.runs.toList.any (fun entry =>
    active.contains entry.1 && entry.2.name == name && entry.2.ns == ns
      && !entry.2.unknownOwners.isEmpty)

/-- Whether a run of the job keeps a matching occurrence from launching. -/
def overlaps (name ns : String) (overlap : OverlapPolicy) (active : List Nat) : Bool :=
  catalog.runs.toList.any (fun entry =>
    entry.2.ns == ns && entry.2.name == name
      && ((!entry.2.replayUnknown && !entry.2.unknownOwners.isEmpty)
        || (overlap == .forbid && active.contains entry.1)))

/-- The revision a put gets: the prior one for the same content, the next one otherwise. -/
def putRevision (name ns : String) (definition : JobDefinition) : Except JobError Nat :=
  match catalog.definition ns name with
  | some record =>
    if record.definition = definition then .ok record.revision
    else nextRevision record.revision
  | none =>
    let held := catalog.definitionsIn ns
    if held ≥ maxJobDefinitionsPerNamespace then
      .error (.reason ("namespace " ++ quoted ns ++ s!" already has {held} job definitions; "
        ++ s!"the limit is {maxJobDefinitionsPerNamespace} per namespace "
        ++ "(one-off jobs expire with their last run)"))
    else if catalog.definitions.size ≥ maxJobDefinitions then
      .error (.reason (s!"the cluster already has {catalog.definitions.size} job definitions; "
        ++ s!"the limit is {maxJobDefinitions}"))
    else
      let runs := catalog.runs.toList.filter (fun entry =>
        entry.2.name == name && entry.2.ns == ns)
      nextRevision ((runs.map (·.2.revision)).foldl max 0)

/-- The minute a new or changed schedule starts from. -/
def baseline (prior : Option DefinitionRecord) (definition : JobDefinition)
    (nowEpochSecs : Nat)
    : Except JobError (Option Int) :=
  if definition.cron.isSome
      && prior.all (fun record =>
        record.definition ≠ definition || record.lastObservedMinute.isNone) then
    (minuteOf nowEpochSecs).map some
  else .ok none

variable (P : Platform)

def newRun (name ns : String) (definition : JobDefinition) (revision : Nat) (trigger : RunTrigger)
    : RunRecord where
  name := name
  ns := ns
  revision := revision
  trigger := trigger
  definitionDigest := definition.digest P
  replayUnknown := definition.replayUnknown
  unknownOwners := ∅

/-- Plan a new run, unless too many runs are retained. -/
def planRun (catalog : JobCatalog) (name ns : String) (definition : JobDefinition) (revision : Nat)
    (trigger : RunTrigger) (nowEpochSecs : Nat)
    : Except JobError JobPlan :=
  if catalog.runs.size ≥ maxJobRuns then
    .error (.reason (s!"the cluster already retains {catalog.runs.size} job runs; "
      ++ s!"the limit is {maxJobRuns}"))
  else
    .ok (.register definition (newRun P name ns definition revision trigger) nowEpochSecs)

/-- The run a put's trigger already names, if it names one for the same definition. -/
def existingRun (catalog : JobCatalog) (name ns : String)
    (definition : JobDefinition) : Option RunTrigger → Except JobError (Option Nat)
  | none => .ok none
  | some trigger => do
      trigger.validate
      refuseIf trigger.isCron
        (.reason "cron occurrences must use the fenced schedule transaction")
      match catalog.triggered name ns trigger with
      | none => return none
      | some (id, run) => do
          refuseIf (run.definitionDigest ≠ definition.digest P)
            (.reason "run trigger already names a different accepted definition")
          return some id

def define (ns name : String) (definition : JobDefinition) (revision : Nat) (start : Option Int)
    : JobCatalog :=
  { catalog with
    definitions := catalog.definitions.insert (definitionKey ns name)
      (.revise (catalog.definition ns name) definition revision start) }

def recordPut (catalog : JobCatalog) (name ns : String) (definition : JobDefinition)
    (trigger : Option RunTrigger) (nowEpochSecs : Nat) (active : List Nat)
    : Except JobError (JobPlan × JobCatalog) := do
  refuseIf (trigger.isSome && catalog.unknownOwned name ns active)
    (.reason ("an unknown run still owns this job; "
      ++ "acknowledge replay before another admission"))
  let revision ← catalog.putRevision name ns definition
  let start ← baseline (catalog.definition ns name) definition nowEpochSecs
  let recorded := catalog.define ns name definition revision start
  match trigger with
  | none => return (.recorded, recorded)
  | some trigger => do
      let plan ← recorded.planRun P name ns definition revision trigger nowEpochSecs
      return (plan, recorded)

def preparePut (catalog : JobCatalog) (name ns : String) (definition : JobDefinition)
    (trigger : Option RunTrigger) (nowEpochSecs : Nat) (active : List Nat)
    : Except JobError (JobPlan × JobCatalog) := do
  refuseIf (definition.template.ns.any (· != ns))
    (.reason "definition namespace disagrees with its job key")
  (definition.within ns).validate P
  match ← catalog.existingRun P name ns (definition.within ns) trigger with
  | some id => return (.existing id, catalog)
  | none => catalog.recordPut P name ns (definition.within ns) trigger nowEpochSecs active

/-- The schedule of a definition, if an occurrence at `minute` may claim it: the revision is
current and the minute is the one observed. -/
def claimable (record : DefinitionRecord) (revision : Nat) (minute : Int) (nowEpochSecs : Nat)
    : Except JobError CronPolicy := do
  refuseIf (record.revision ≠ revision) (.reason "stale job definition revision")
  match record.definition.cron with
  | none => throw (.reason "job has no cron schedule")
  | some cron => do
      refuseIf (minute < 0) (.reason "cron occurrence must name the observed UTC minute")
      let observed ← minuteOf nowEpochSecs
      refuseIf (minute ≠ observed) (.reason "cron occurrence must name the observed UTC minute")
      return cron

/-- Whether the schedule fires at the time of the occurrence. -/
def checkFires (cron : CronPolicy) (nowEpochSecs : Nat) : Except JobError Unit := do
  refuseIf (nowEpochSecs ≥ i64Size) (.reason "cron time out of range")
  match fromUnixTimestamp nowEpochSecs with
  | none => throw (.reason "cron time out of range")
  | some time =>
    match CronSchedule.parse cron.expression with
    | .error refused => throw (.cron refused)
    | .ok schedule =>
      refuseIf (!schedule.fires time) (.reason "cron occurrence does not match the schedule")

def claim (ns name : String) (record : DefinitionRecord) (minute : Int) : JobCatalog :=
  { catalog with
    definitions := catalog.definitions.insert (definitionKey ns name)
      { record with lastObservedMinute := some minute } }

def prepareFire (catalog : JobCatalog) (name ns : String) (revision : Nat) (minute : Int)
    (nowEpochSecs : Nat) (active : List Nat)
    : Except JobError (JobPlan × JobCatalog) :=
  match catalog.definition ns name with
  | none => .error (.reason "unknown job definition")
  | some record => do
      let cron ← claimable record revision minute nowEpochSecs
      if record.lastObservedMinute.any (· ≥ minute) then
        return (.recorded, catalog)
      else do
        checkFires cron nowEpochSecs
        let claimed := catalog.claim ns name record minute
        if claimed.overlaps name ns cron.overlap active then
          return (.recorded, claimed)
        else do
          let plan ←
            claimed.planRun P name ns record.definition revision (.cron minute) nowEpochSecs
          return (plan, claimed)

/-- Decide a job transaction on a candidate copy of the catalog. `active` are the runs that
have not finished. -/
def prepare (catalog : JobCatalog) (write : JobWrite) (active : List Nat)
    : Except JobError (JobPlan × JobCatalog) := do
  validateKey write.ns write.name
  match write with
  | .put name ns definition trigger now =>
    catalog.preparePut P name ns definition trigger now active
  | .fire name ns revision minute now =>
    catalog.prepareFire P name ns revision minute now active

end JobCatalog

open Checks BTreeMap

-- Keys

@[simp] theorem validateKey_eq_ok {ns name : String} {answer : Unit}
    : validateKey ns name = .ok answer
      ↔ validWorkloadLabel ns = true ∧ validWorkloadLabel name = true := by
  simp [validateKey]

@[simp] theorem nextRevision_eq_ok {revision next : Nat}
    : nextRevision revision = .ok next ↔ next = revision + 1 ∧ revision + 1 < u64Size := by
  unfold nextRevision checkedAdd
  split
  · rename_i found
    split at found
    · cases found
      simp [eq_comm]
      omega
    · cases found
  · rename_i full
    split at full
    · cases full
    · simp
      omega

@[simp] theorem minuteOf_eq_ok {now : Nat} {minute : Int}
    : minuteOf now = .ok minute ↔ now / 60 < i64Size ∧ minute = ((now / 60 : Nat) : Int) := by
  unfold minuteOf
  split <;> simp_all [eq_comm]

namespace JobCatalog

-- Searches among the retained runs

section Searches

variable {catalog : JobCatalog} {name ns : String}

theorem triggered_eq_some {trigger : RunTrigger} {id : Nat} {run : RunRecord}
    (found : catalog.triggered name ns trigger = some (id, run))
    : catalog.runs[id]? = some run
      ∧ run.name = name ∧ run.ns = ns ∧ run.trigger = trigger := by
  have named := List.find?_some found
  have member := List.mem_of_find?_eq_some found
  simp only [Bool.and_eq_true, beq_iff_eq] at named
  exact ⟨mem_toList.mp member, named.1.1, named.1.2, named.2⟩

theorem triggered_eq_none {trigger : RunTrigger}
    : catalog.triggered name ns trigger = none
      ↔ ∀ (id : Nat) (run : RunRecord),
          catalog.runs[id]? = some run
          → run.name = name
          → run.ns = ns
          → run.trigger ≠ trigger := by
  simp only [triggered, List.find?_eq_none, Prod.forall, mem_toList, Bool.and_eq_true,
    beq_iff_eq, not_and, and_imp, ne_eq]

theorem unknownOwned_eq_false {active : List Nat}
    : catalog.unknownOwned name ns active = false
      ↔ ∀ (id : Nat) (run : RunRecord),
          catalog.runs[id]? = some run
          → id ∈ active
          → run.name = name
          → run.ns = ns
          → run.unknownOwners.isEmpty = true := by
  simp only [unknownOwned, List.any_eq_false, Prod.forall, mem_toList, Bool.and_eq_true, beq_iff_eq,
    List.contains_iff_mem, Bool.not_eq_true', not_and, and_imp, Bool.not_eq_false]

theorem overlaps_eq_false {overlap : OverlapPolicy} {active : List Nat}
    (clear : catalog.overlaps name ns overlap active = false) {id : Nat} {run : RunRecord}
    (found : catalog.runs[id]? = some run) (named : run.name = name) (home : run.ns = ns)
    (conservative : run.replayUnknown = false)
    : run.unknownOwners.isEmpty = true := by
  have apart := List.any_eq_false.mp clear (id, run) (mem_toList.mpr found)
  by_contra owned
  rw [Bool.not_eq_true] at owned
  exact apart (by simp only [named, home, conservative, owned, beq_self_eq_true, Bool.not_false,
    Bool.and_self, Bool.true_or])

end Searches

-- Prepared transactions

/-- A put of `definition` passed its checks and is recorded under `revision`. -/
structure Recorded (P : Platform) (catalog : JobCatalog) (name ns : String)
    (definition : JobDefinition) (nowEpochSecs revision : Nat) (next : JobCatalog) : Prop where
  valid : definition.validate P = .ok ()
  home : definition.template.ns = some ns
  revised : catalog.putRevision name ns definition = .ok revision
  started
    : ∃ start,
        baseline (catalog.definition ns name) definition nowEpochSecs = .ok start
        ∧ next = catalog.define ns name definition revision start

/-- The trigger of a put may name a run: it is well formed and no schedule's. -/
structure Nameable (trigger : RunTrigger) : Prop where
  valid : trigger.validate = .ok ()
  notCron : trigger.isCron = false

variable {P : Platform} {active : List Nat} {next : JobCatalog} {plan : JobPlan}

variable {catalog : JobCatalog}

/-- A put finds the run its trigger named before, or records its definition and plans a run
for its trigger. -/
theorem prepare_put {name ns : String} {definition : JobDefinition}
    {trigger : Option RunTrigger} {now : Nat}
    (prepared : catalog.prepare P (.put name ns definition trigger now) active = .ok (plan, next))
    : (∃ named id run,
        trigger = some named ∧ Nameable named
        ∧ catalog.triggered name ns named = some (id, run)
        ∧ run.definitionDigest = (definition.within ns).digest P
        ∧ plan = .existing id ∧ next = catalog)
      ∨ ∃ revision,
          Recorded P catalog name ns (definition.within ns) now revision next
          ∧ (trigger = none ∧ plan = .recorded
            ∨ ∃ named,
                trigger = some named ∧ Nameable named
                ∧ catalog.triggered name ns named = none
                ∧ catalog.unknownOwned name ns active = false
                ∧ catalog.runs.size < maxJobRuns
                ∧ plan = .register (definition.within ns)
                  (newRun P name ns (definition.within ns) revision named) now) := by
  simp only [prepare, JobWrite.ns, JobWrite.name, preparePut, bind_eq_ok] at prepared
  obtain ⟨_, _, _, _, _, valid, found, existing, rest⟩ := prepared
  cases trigger with
  | none =>
    simp only [existingRun, Except.ok.injEq] at existing
    subst existing
    simp only [recordPut, bind_eq_ok, pure_eq_ok, Prod.mk.injEq] at rest
    obtain ⟨_, _, revision, revised, start, started, rfl, rfl⟩ := rest
    exact .inr ⟨revision, ⟨valid, rfl, revised, start, started, rfl⟩, .inl ⟨rfl, rfl⟩⟩
  | some named =>
    simp only [existingRun, bind_eq_ok, refuseIf_eq_ok] at existing
    obtain ⟨_, validTrigger, _, notCron, existing⟩ := existing
    have nameable : Nameable named := ⟨validTrigger, by simpa using notCron⟩
    cases found? : catalog.triggered name ns named with
    | some entry =>
      obtain ⟨id, run⟩ := entry
      simp only [found?, bind_eq_ok, refuseIf_eq_ok, pure_eq_ok] at existing
      obtain ⟨_, sameDigest, rfl⟩ := existing
      simp only [pure_eq_ok, Prod.mk.injEq] at rest
      exact .inl ⟨named, id, run, rfl, nameable, found?, by simpa using sameDigest,
        rest.1.symm, rest.2.symm⟩
    | none =>
      simp only [found?, pure_eq_ok] at existing
      subst existing
      simp only [recordPut, bind_eq_ok, pure_eq_ok, refuseIf_eq_ok, Prod.mk.injEq, planRun] at rest
      obtain ⟨_, unowned, revision, revised, start, started, _, room, rfl, rfl⟩ := rest
      split at room
      · cases room
      rename_i few
      cases room
      refine .inr ⟨revision, ⟨valid, rfl, revised, start, started, rfl⟩,
        .inr ⟨named, rfl, nameable, found?, by simpa using unowned, ?_, rfl⟩⟩
      exact Nat.lt_of_not_ge few

/-- A definition's schedule claims `minute`: its revision is the write's and its cursor is
before the minute. -/
structure Claims (record : DefinitionRecord) (revision : Nat) (minute : Int)
    (cron : CronPolicy) : Prop where
  current : record.revision = revision
  scheduled : record.definition.cron = some cron
  nonneg : 0 ≤ minute
  later : ∀ seen, record.lastObservedMinute = some seen → seen < minute

/-- A fire finds its minute already processed, or claims it and skips or plans a run. -/
theorem prepare_fire {name ns : String} {revision : Nat} {minute : Int}
    {now : Nat}
    (prepared : catalog.prepare P (.fire name ns revision minute now) active = .ok (plan, next))
    : ∃ record,
        catalog.definition ns name = some record
        ∧ ((plan = .recorded ∧ next = catalog)
          ∨ ∃ cron,
              Claims record revision minute cron
              ∧ minute = ((now / 60 : Nat) : Int)
              ∧ next = catalog.claim ns name record minute
              ∧ (plan = .recorded
                ∨ catalog.overlaps name ns cron.overlap active = false
                  ∧ catalog.runs.size < maxJobRuns
                  ∧ plan = .register record.definition
                    (newRun P name ns record.definition revision (.cron minute)) now)) := by
  simp only [prepare, JobWrite.ns, JobWrite.name, bind_eq_ok] at prepared
  obtain ⟨_, _, prepared⟩ := prepared
  unfold prepareFire at prepared
  split at prepared
  · cases prepared
  rename_i record found
  refine ⟨record, found, ?_⟩
  simp only [bind_eq_ok] at prepared
  obtain ⟨_, claimed, prepared⟩ := prepared
  split at prepared
  · simp only [pure_eq_ok, Prod.mk.injEq] at prepared
    exact .inl ⟨prepared.1.symm, prepared.2.symm⟩
  rename_i unseen
  simp only [claimable, bind_eq_ok, refuseIf_eq_ok] at claimed
  obtain ⟨_, current, claimed⟩ := claimed
  split at claimed
  · simp at claimed
  rename_i policy scheduled
  simp only [bind_eq_ok, refuseIf_eq_ok, minuteOf_eq_ok, pure_eq_ok] at claimed
  obtain ⟨_, _, _, ⟨_, isObserved⟩, _, sameMinute, rfl⟩ := claimed
  have later : ∀ seen, record.lastObservedMinute = some seen → seen < minute := by
    intro seen cursor
    simpa [cursor] using unseen
  have claims : Claims record revision minute policy :=
    ⟨by simpa using current, scheduled, by omega, later⟩
  have observedMinute : minute = ((now / 60 : Nat) : Int) := by
    rw [← isObserved]
    simpa using sameMinute
  refine .inr ⟨policy, claims, observedMinute, ?_⟩
  simp only [bind_eq_ok] at prepared
  obtain ⟨_, _, prepared⟩ := prepared
  split at prepared
  · simp only [pure_eq_ok, Prod.mk.injEq] at prepared
    exact ⟨prepared.2.symm, .inl prepared.1.symm⟩
  rename_i clear
  simp only [bind_eq_ok, pure_eq_ok, Prod.mk.injEq, planRun] at prepared
  obtain ⟨_, room, rfl, rfl⟩ := prepared
  split at room
  · cases room
  rename_i few
  cases room
  exact ⟨rfl, .inr ⟨by simpa [overlaps, claim] using clear, Nat.lt_of_not_ge few, rfl⟩⟩

section

variable {catalog : JobCatalog} {ns name : String} {forget : Bool}
  (stopped : catalog.stop ns name forget = .ok next)
include stopped

/-- Stopping a definition advances its revision and clears its schedule, or forgets it. -/
theorem stop_ok
    : ∃ record revised,
        catalog.definition ns name = some record
        ∧ (revised = record
          ∨ revised = { record with
              revision := record.revision + 1
              definition := { record.definition with cron := none } })
        ∧ revised.definition.cron = none
        ∧ next = { catalog with
            definitions :=
              if forget then catalog.definitions.erase (definitionKey ns name)
              else catalog.definitions.insert (definitionKey ns name) revised } := by
  unfold stop at stopped
  split at stopped
  · cases stopped
  rename_i record found
  have erased : ∀ revised, (catalog.definitions.insert (definitionKey ns name) revised).erase
      (definitionKey ns name) = catalog.definitions.erase (definitionKey ns name) := by
    intro revised
    apply Std.ExtTreeMap.ext_getElem?
    intro key
    rw [get_erase, get_erase]
    split
    · rfl
    · rw [get_insert_ne _ _ ‹_›]
  by_cases scheduled : record.definition.cron.isSome = true
  · simp only [scheduled, if_true, bind_eq_ok, nextRevision_eq_ok, pure_eq_ok, erased]
      at stopped
    obtain ⟨_, ⟨rfl, _⟩, _, rfl, rfl⟩ := stopped
    exact ⟨record, _, found, .inr rfl, rfl, rfl⟩
  · simp only [scheduled, Bool.false_eq_true, if_false, bind_eq_ok, pure_eq_ok, erased]
      at stopped
    obtain ⟨_, rfl, rfl⟩ := stopped
    exact ⟨record, record, found, .inl rfl, by simpa using scheduled, rfl⟩

theorem stop_runs
    : next.runs = catalog.runs := by
  obtain ⟨_, _, _, _, _, rfl⟩ := stop_ok stopped
  rfl

end

/-- A prepared transaction names its job by labels. -/
theorem prepare_labels {write : JobWrite}
    (prepared : catalog.prepare P write active = .ok (plan, next))
    : validWorkloadLabel write.ns = true ∧ validWorkloadLabel write.name = true := by
  simp only [prepare, bind_eq_ok, validateKey_eq_ok] at prepared
  exact prepared.choose_spec.1

end JobCatalog

end Reliaburger
