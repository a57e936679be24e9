import Reliaburger.Job.Cron
import Reliaburger.Library.Checks

/-! The checks a submission passes before it is admitted: execution templates, job definitions
and whole configurations.
-/

namespace Reliaburger

open Checks

-- Execution templates

namespace JobSpec

def hasRunPolicy (spec : JobSpec) : Bool :=
  spec.maxAttempts.isSome || spec.taskTimeoutSecs.isSome || spec.overlap.isSome
    || spec.replayUnknown

/-- Refuse fields that contradict the explicitly selected execution backend. -/
def validateRuntime (spec : JobSpec) : Except String Unit :=
  match spec.runtime with
  | .process =>
    if spec.image.isSome then
      .error "runtime=process refuses image; use exec or script"
    else if spec.exec.isSome = spec.script.isSome then
      .error "runtime=process requires exactly one of exec or script"
    else .ok ()
  | .runc | .sharedRunc =>
    if spec.image.isNone then
      .error "runtime=runc/shared-runc requires an image; host exec/script requires runtime=process"
    else if spec.exec.isSome || spec.script.isSome then
      .error "container runtime refuses host exec/script; use runtime=process"
    else .ok ()

end JobSpec

/-- Check a homogeneous image or host template. Schedules, dependency hooks and run policies
do not describe individual delegated tasks.
-/
def validateTemplate (P : Platform) (template : JobSpec) : Except TaskArraySpecError Unit :=
  match template.validateRuntime with
  | .error field => .error (.templateField field)
  | .ok () =>
    if (P.templateJson template).utf8ByteSize > 16 * 1024 then
      .error (.templateField "a template larger than 16 KiB")
    else if template.image.isSome.toNat + template.exec.isSome.toNat
        + template.script.isSome.toNat ≠ 1 then
      .error (.unsupportedTemplate "a template without exactly one of image, exec or script")
    else if template.cpu.any (·.request == 0) || template.memory.any (·.request == 0) then
      .error (.templateField "a zero CPU or memory request")
    else if template.schedule.isSome then
      .error (.templateField "a cron schedule")
    else if !template.runBefore.isEmpty then
      .error (.templateField "run_before dependencies")
    else if template.hasRunPolicy then
      .error (.templateField ("run policy fields (max_attempts, task_timeout_secs, overlap, "
        ++ "replay_unknown); set them beside the template"))
    else .ok ()

-- Job definitions

/-- Why a job transaction was refused; what the source renders as text keeps its parts. -/
inductive JobError where
  | reason (text : String)
  | invalid (error : TaskArraySpecError)
  | cron (error : CronError)
  | config (error : ConfigError)
deriving DecidableEq, Repr

namespace JobDefinition

/-- Normalise a declared job into one indexed task. The job's own policy fields move out of the
template into the definition; omitted ones are four attempts and no deadline, or one attempt
and 600 seconds for a hook.
-/
def fromSpec (spec : JobSpec) : JobDefinition :=
  let hook := !spec.runBefore.isEmpty
  { template :=
      { spec with
        overlap := none
        schedule := none
        runBefore := []
        maxAttempts := none
        taskTimeoutSecs := none
        replayUnknown := false }
    tasks :=
      { TaskArraySpec.withCount 1 with
        maxAttempts := spec.maxAttempts.getD (if hook then 1 else 4)
        taskTimeoutSecs := spec.taskTimeoutSecs.getD (if hook then 600 else 0) }
    cron := spec.schedule.map (fun expression =>
      { expression, overlap := spec.overlap.getD .forbid, missed := .skip })
    replayUnknown := spec.replayUnknown
    hook }

def isLasting (definition : JobDefinition) : Bool :=
  definition.cron.isSome || definition.hook

/-- Validate the immutable definition before recording any revision or run. -/
def validate (P : Platform) (definition : JobDefinition) : Except JobError Unit :=
  if (P.definitionJson definition).utf8ByteSize > 20 * 1024 then
    .error (.reason "job definition exceeds 20 KiB")
  else
    match definition.tasks.validate with
    | .error refused => .error (.invalid refused)
    | .ok () =>
      match validateTemplate P definition.template with
      | .error refused => .error (.invalid refused)
      | .ok () =>
        match definition.cron with
        | none => .ok ()
        | some cron =>
          match CronSchedule.parse cron.expression with
          | .error refused => .error (.cron refused)
          | .ok _ => .ok ()

def digest (P : Platform) (definition : JobDefinition) : String :=
  P.sha256 (P.definitionJson definition)

def within (definition : JobDefinition) (ns : String) : JobDefinition :=
  { definition with template := { definition.template with ns := some ns } }

end JobDefinition

-- Configurations

def validateLabel (value context field : String) : Except ConfigError Unit :=
  if validWorkloadLabel value then .ok ()
  else
    .error (.validation field context
      (quoted value ++ " must be a lowercase DNS label of 1–63 bytes, with letters or digits at "
        ++ "both ends and only letters, digits or hyphens within"))

/-- An `allow_from` source: an app, or an app of a namespace. -/
def validSource (source : String) : Bool :=
  match splitKey source with
  | some (ns, app) => validWorkloadLabel ns && validWorkloadLabel app
  | none => validWorkloadLabel source

def validateNetworkPolicy (P : Platform) (context : String) (firewall : Option FirewallSpec)
    (egress : Option EgressSpec)
    : Except ConfigError Unit := do
  refuseIf (egress.any (fun egress => !egress.allowFranchise.isEmpty))
    (.validation "egress.allow_franchise" context "cross-cluster egress isn't implemented")
  checkAll (fun entry =>
    match P.validateEgressEntry entry with
    | .ok () => .ok ()
    | .error reason => .error (.validation "egress" context reason))
    ((egress.map (·.allow)).getD [])
  checkAll (fun source =>
    if validSource source then .ok ()
    else
      .error (.validation "firewall.allow_from" context
        (quoted source ++ " must be an app name or namespace/app, each a lowercase DNS label")))
    ((firewall.map (·.allowFrom)).getD [])

/-- Check a declared job's run policy against the limits its definition has. -/
def validateJobPolicy (name : String) (job : JobSpec) : Except ConfigError Unit := do
  let context := "job " ++ quoted name
  refuseIf (job.overlap.isSome && job.schedule.isNone)
    (.validation "overlap" context "only applies to a job with a schedule")
  refuseIf (job.replayUnknown && !job.runBefore.isEmpty)
    (.validation "replay_unknown" context
      ("a run_before hook can't replay an unknown outcome automatically; "
        ++ "acknowledge it with relish batch replay"))
  match (JobDefinition.fromSpec job).tasks.validate with
  | .ok () => pure ()
  | .error refused =>
    let field := match refused with
      | .attemptsOutOfRange _ => "max_attempts"
      | .timeoutOutOfRange _ => "task_timeout_secs"
      | _ => "job"
    throw (.validation field context refused.text)

def validateJob (P : Platform) (name : String) (job : JobSpec) : Except ConfigError Unit := do
  let context := "job " ++ quoted name
  validateLabel name "job" "name"
  validateNetworkPolicy P context job.firewall job.egress
  match job.env.toList.find? (fun entry => entry.2.isProvider) with
  | some (key, _) =>
    throw (.validation ("env." ++ key) context
      "PROVIDER[...] secrets resolve for apps only; a job can't use one yet")
  | none => pure ()
  validateLabel job.namespace name "namespace"
  match job.schedule with
  | none => pure ()
  | some expression =>
    match CronSchedule.parse expression with
    | .ok _ => pure ()
    | .error refused => throw (.validation "schedule" context refused.text)
  refuseIf (job.image.isNone && job.exec.isNone && job.script.isNone) (.missingImage name)
  refuseIf (job.exec.isSome && job.image.isSome)
    (.validation "exec" context "exec and image are mutually exclusive")
  refuseIf (job.script.isSome && job.image.isSome)
    (.validation "script" context "script and image are mutually exclusive")
  refuseIf (job.exec.isSome && job.script.isSome)
    (.validation "exec/script" context "exec and script are mutually exclusive")
  match job.validateRuntime with
  | .ok () => pure ()
  | .error reason => throw (.validation "runtime" context reason)
  validateJobPolicy name job

namespace Config

/-- Validate identity labels and refuse identities an app and a job would share. -/
def validateWorkloadNames (config : Config) : Except ConfigError Unit := do
  checkAll (fun entry => validateLabel entry.1 "namespace declaration" "name")
    config.namespaces.toList
  checkAll (fun entry => do
    validateLabel entry.1 "job" "name"
    validateLabel entry.2.namespace entry.1 "namespace") config.job.toList
  checkAll (fun entry => do
    validateLabel entry.1 "app" "name"
    validateLabel entry.2.namespace entry.1 "namespace"
    refuseIf (config.job[entry.1]?.any (fun job => job.namespace == entry.2.namespace))
      (.validation ("job." ++ entry.1) entry.2.namespace
        "apps and jobs must use distinct names within a namespace")) config.app.toList

/-- The app a prerequisite names, if it names one of this configuration's. -/
def prerequisiteApp (config : Config) (target : String) : Option AppSpec :=
  if "app.".toList.isPrefixOf target.toList then
    config.app[String.ofList (target.toList.drop 4)]?
  else none

/-- A prerequisite must gate an app in this same submission and namespace. -/
def validatePrerequisites (config : Config) : Except ConfigError Unit :=
  checkAll (fun entry =>
    checkAll (fun target =>
      refuseIf (entry.2.schedule.isSome
          || !(config.prerequisiteApp target).any
            (fun app => app.namespace == entry.2.namespace))
        (.validation "run_before" entry.1
          ("prerequisites must name app.<name> in the same apply and namespace, "
            ++ "and cannot have a schedule"))) entry.2.runBefore) config.job.toList

/-- Check all local semantics; whether a namespace exists is resolved later. -/
def validateIntrinsic (P : Platform) (config : Config) : Except ConfigError Unit := do
  checkAll (fun entry =>
    .error (.validation ("use." ++ entry.1) "config"
      "templates must be expanded before the config is validated")) config.uses.toList
  config.validateWorkloadNames
  checkAll (fun entry => P.validateApp entry.1 entry.2) config.app.toList
  checkAll (fun entry => validateJob P entry.1 entry.2) config.job.toList
  config.validatePrerequisites
  checkAll (fun entry => P.validateNamespace entry.1 entry.2) config.namespaces.toList
  checkAll (fun entry => P.validatePermission entry.1 entry.2) config.permission.toList
  checkAll (fun entry => P.validateBuild entry.1 entry.2) config.build.toList
  checkAll (fun entry =>
    match P.checkPolicy entry.1 entry.2 with
    | .ok () => .ok ()
    | .error reason => .error (.invalidPolicy entry.1 reason)) config.policy.toList

end Config

end Reliaburger
