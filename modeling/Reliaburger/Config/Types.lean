import Reliaburger.TaskArray.State

/-! What people submit: job specifications, job definitions, manifests of resource profiles and
whole configurations. `Platform` gathers what is outside the control plane's own logic: how a
value is written as JSON, the digest of a text, and the checks of configuration sections that
the job store only passes through.
-/

namespace Reliaburger

inductive JobRuntime where
  | runc
  | process
  | sharedRunc
deriving DecidableEq, Repr

structure ResourceRange where
  request : Nat
  limit : Nat
deriving DecidableEq, Repr

/-- An environment value: plain, encrypted, or a reference a secret provider resolves. -/
inductive EnvValue where
  | plain (text : String)
  | encrypted (text : String)
  | provider (reference : String)
deriving DecidableEq, Repr

def EnvValue.isProvider : EnvValue → Bool
  | .provider _ => true
  | _ => false

def EnvValue.isEncrypted : EnvValue → Bool
  | .encrypted _ => true
  | _ => false

def EnvValue.asStr : EnvValue → String
  | .plain text | .encrypted text | .provider text => text

structure FirewallSpec where
  allowFrom : List String
deriving DecidableEq, Repr

structure EgressSpec where
  allow : List String
  allowFranchise : List String
deriving DecidableEq, Repr

/-- The template and instance that made a workload. -/
structure Provenance where
  template : String
  instanceName : String
deriving DecidableEq, Repr

/-- Whether a matching cron occurrence may overlap an earlier run. -/
inductive OverlapPolicy where
  | forbid
  | allow
deriving DecidableEq, Repr

/-- A run-to-completion task. `ns` is its namespace. -/
structure JobSpec where
  runtime : JobRuntime := .runc
  image : Option String := none
  command : Option (List String) := none
  schedule : Option String := none
  runBefore : List String := []
  memory : Option ResourceRange := none
  cpu : Option ResourceRange := none
  pids : Option Nat := none
  env : BTreeMap String EnvValue := ∅
  ns : Option String := none
  exec : Option String := none
  script : Option String := none
  firewall : Option FirewallSpec := none
  egress : Option EgressSpec := none
  maxAttempts : Option Nat := none
  taskTimeoutSecs : Option Nat := none
  overlap : Option OverlapPolicy := none
  replayUnknown : Bool := false
  provenance : Option Provenance := none
deriving DecidableEq

/-- The namespace a job or app belongs to when it names none. -/
def defaultNamespace : String := "default"

def JobSpec.namespace (spec : JobSpec) : String :=
  spec.ns.getD defaultNamespace

/-- What a leader does with schedule minutes missed while it was unavailable. -/
inductive MissedRunPolicy where
  | skip
deriving DecidableEq, Repr

/-- Explicit UTC scheduling policies, separate from a task's runtime template. -/
structure CronPolicy where
  expression : String
  overlap : OverlapPolicy
  missed : MissedRunPolicy
deriving DecidableEq, Repr

/-- Reusable work and the policy used when a trigger creates a run. -/
structure JobDefinition where
  template : JobSpec
  tasks : TaskArraySpec
  cron : Option CronPolicy
  replayUnknown : Bool
  /-- A deployment hook: kept like a schedule, because the next apply that names it runs it
  again. -/
  hook : Bool
deriving DecidableEq

/-- One homogeneous resource profile in a mixed submission. -/
structure ManifestCohort where
  name : String
  spec : TaskArraySpec
  template : JobSpec
deriving DecidableEq

/-- The text of a configuration section the job store passes through unread. -/
abbrev Section : Type := String

inductive Replicas where
  | fixed (count : Nat)
  /-- One replica on every node. -/
  | daemonSet
deriving DecidableEq, Repr

/-- Automatic scaling between two bounds; the metric and its windows are passed through. -/
structure AutoscaleSpec where
  min : Nat
  max : Nat
  metric : Section
deriving DecidableEq, Repr

/-- An app. The job store reads only its namespace; `init` and `sidecar` are the images of its
init containers and sidecars. -/
structure AppSpec where
  ns : Option String := none
  image : Option String := none
  init : List (Option String) := []
  sidecar : List (Option String) := []
  replicas : Replicas := .fixed 1
  env : BTreeMap String EnvValue := ∅
  autoscale : Option AutoscaleSpec := none
  /-- The API token that manages the app, if a controller claimed it. -/
  owner : Option String := none
  body : Section := ""
deriving DecidableEq

def AppSpec.namespace (app : AppSpec) : String :=
  app.ns.getD defaultNamespace

def AppSpec.imageReferences (app : AppSpec) : List String :=
  app.image.toList ++ app.init.filterMap id ++ app.sidecar.filterMap id

/-- A parsed configuration; every kind of section is keyed by name. -/
structure Config where
  app : BTreeMap String AppSpec := ∅
  job : BTreeMap String JobSpec := ∅
  namespaces : BTreeMap String Section := ∅
  permission : BTreeMap String Section := ∅
  policy : BTreeMap String Section := ∅
  build : BTreeMap String Section := ∅
  template : BTreeMap String Section := ∅
  uses : BTreeMap String Section := ∅
deriving DecidableEq

/-- Why a configuration was refused: which field of what, and the reason. -/
inductive ConfigError where
  | missingImage (name : String)
  | validation (field context reason : String)
  | invalidPolicy (name reason : String)
deriving DecidableEq, Repr

/-- What the store relies on from outside its own logic. Serialising a value cannot fail:
none of the serialised types has a key or number JSON cannot express.
-/
structure Platform where
  templateJson : JobSpec → String
  definitionJson : JobDefinition → String
  configJson : Config → String
  manifestJson : String → String → List ManifestCohort → String
  jobsJson : List (String × JobSpec) → String
  /-- A run's id, a node and the chunk generations that node holds. -/
  generationsJson : Nat → NodeId → List (Nat × Nat) → String
  /-- The SHA-256 digest of a text, in hexadecimal. -/
  sha256 : String → String
  validateEgressEntry : String → Except String Unit
  validateApp : String → AppSpec → Except ConfigError Unit
  validateNamespace : String → Section → Except ConfigError Unit
  validatePermission : String → Section → Except ConfigError Unit
  validateBuild : String → Section → Except ConfigError Unit
  checkPolicy : String → Section → Except String Unit

/-- Whether a workload or namespace name is a nonempty lowercase DNS label. -/
def validWorkloadLabel (value : String) : Bool :=
  let edge (char : Char) : Bool := ('a' ≤ char && char ≤ 'z') || ('0' ≤ char && char ≤ '9')
  let chars := value.toList
  !chars.isEmpty
    && value.utf8ByteSize ≤ 63
    && chars.head?.any edge
    && chars.getLast?.any edge
    && chars.all (fun char => edge char || char == '-')

def splitOnce (separator : Char) (text : List Char) : Option (List Char × List Char) :=
  match text.span (· != separator) with
  | (_, []) => none
  | (before, _ :: after) => some (before, after)

theorem splitOnce_append {separator : Char} {before : List Char} (absent : separator ∉ before)
    (after : List Char)
    : splitOnce separator (before ++ separator :: after) = some (before, after) := by
  have differs : ∀ char ∈ before, (char != separator) = true := by
    intro char member
    simpa using fun same : char = separator => absent (same ▸ member)
  have split : (before ++ separator :: after).span (· != separator)
      = (before, separator :: after) := by
    rw [List.span_eq_takeWhile_dropWhile, List.takeWhile_append_of_pos differs,
      List.dropWhile_append_of_pos differs]
    simp
  simp only [splitOnce, split]

/-- `ns/name` as its two parts. -/
def splitKey (key : String) : Option (String × String) :=
  (splitOnce '/' key.toList).map (fun parts => (String.ofList parts.1, String.ofList parts.2))

end Reliaburger
