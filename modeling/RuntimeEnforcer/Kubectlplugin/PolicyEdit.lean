import RuntimeEnforcer.Controller.PolicyRun
import RuntimeEnforcer.Lib.Versioned

/-!
# The commands that edit a policy

`kubectl runtime-enforcer policy allow`, `deny`, `ack`, `protect` and `monitor`, of
`internal/kubectlplugin/policy_exec.go`, `policy_ack.go`, `policy_mode.go` and `utils.go`. Each of
them gets the policy, works out a new one on its own, and sends that back with the version it has
read; nothing is retried. What a command works out is a `Plan`.

`CommandRun` is one policy under any number of such commands, under whatever else is done to it by
users, and under the controller (`Controller.PolicyRun`). The requests of a command are steps of
their own. The version of the policy is the number of versions there have been.
-/

set_option autoImplicit false

namespace RuntimeEnforcer.Kubectlplugin

open Lib
open Api (PolicyRun PolicyOp ViolationRecord violationAcknowledgePrefix)

/-! ## What can go wrong, and what is printed -/

inductive CommandErr
  | getFailed (policy : ObjectMeta)
  | noRules (policyName : String)
  | containerNotFound (containerName : ContainerName)
  | violationNotFound (id : Int)
  | reasonUnread
  | reasonRequired
  | modifiedConcurrently (policy : ObjectMeta)
  | updateFailed (policy : ObjectMeta)

def CommandErr.error : CommandErr → String
  | .getFailed p =>
    s!"failed to get WorkloadPolicy {p.name.quote} in namespace {p.ns.val.quote}: "
  | .noRules policyName => s!"policy {policyName.quote} has no rules for containers"
  | .containerNotFound containerName => s!"container {containerName.quote} not found in policy"
  | .violationNotFound id => s!"violation id {id} not found in status.violations"
  | .reasonUnread => "failed to read acknowledgement reason: EOF"
  | .reasonRequired =>
    "acknowledgement reason is required; provide --reason or enter a reason when prompted"
  | .modifiedConcurrently p =>
    s!"WorkloadPolicy {p.name.quote} in namespace {p.ns.val.quote} was modified concurrently"
  | .updateFailed p =>
    s!"failed to update WorkloadPolicy {p.name.quote} in namespace {p.ns.val.quote}: "

inductive PolicyExecAction
  | allow
  | deny
  deriving DecidableEq, Repr

def PolicyExecAction.string : PolicyExecAction → String
  | .allow => "allow"
  | .deny => "deny"

inductive Line
  | noChanges
  | alreadyInMode (mode : Mode)
  | wouldExec (action : PolicyExecAction)
  | wouldSetMode (mode : Mode)
  | wouldAck (violationID : Int)
  | updated
  | modeSet (mode : Mode)
  | acknowledged (violationID : Int)
  | finalAllowed (containerName : ContainerName) (allowed : List Bytes)
  | annotated (annotationKey reason : String)
  | violation (v : ViolationRecord)
  | nothingPersisted
  deriving DecidableEq

/-- The policy to write, and what is printed: with `--dry-run` something before the write and after
it. -/
structure Edit where
  policy : Api.WorkloadPolicy
  preview : List Line
  success : Line
  closing : List Line := []

/-- What a command does with the policy it has read. -/
inductive Plan
  | refuse (e : CommandErr)
  | unchanged (line : Line)
  | update (edit : Edit)

/-! ## `allow` and `deny` -/

def allowExecutables (executables allowed : List Bytes) : List Bytes × Bool :=
  allowed.foldl (fun s exec => if exec ∈ s.1 then s else (s.1 ++ [exec], true)) (executables, false)

def denyExecutables (executables denied : List Bytes) : List Bytes × Bool :=
  if executables = [] then (executables, false)
  else
    executables.foldl
      (fun s exec => if exec ∈ denied then (s.1, true) else (s.1 ++ [exec], s.2)) ([], false)

/-- What is done to an allow-list. -/
def PolicyExecAction.apply : PolicyExecAction → List Bytes → List Bytes → List Bytes × Bool
  | .allow => allowExecutables
  | .deny => denyExecutables

/-- `applyExecutablesToPolicy`: the rules, and whether they have changed. A nil map is a `none`. -/
def applyExecutablesToPolicy (policyName : String) (action : PolicyExecAction)
    (containerName : ContainerName) (executables : List Bytes) :
    Option (GoMap ContainerName WorkloadPolicyRules) →
      Except CommandErr (GoMap ContainerName WorkloadPolicyRules × Bool)
  | none => .error (.noRules policyName)
  | some rulesByContainer =>
    match rulesByContainer.lookup containerName with
    | none => .error (.containerNotFound containerName)
    | some rules =>
      let (updated, containerChanged) := action.apply rules.allowed executables
      if containerChanged then
        .ok (rulesByContainer.insert containerName { rules with allowed := updated }, true)
      else .ok (rulesByContainer, false)

/-- The rules as they are decoded. A policy without rules may have an empty object or nothing at all
in their place, and then the map is nil. -/
def decodedRules (missing : Bool) (rulesByContainer : GoMap ContainerName WorkloadPolicyRules) :
    Option (GoMap ContainerName WorkloadPolicyRules) :=
  if missing && rulesByContainer.entries.isEmpty then none else some rulesByContainer

/-- `runPolicyExec`, between its two requests. -/
def runPolicyExec (action : PolicyExecAction) (containerName : ContainerName)
    (executables : List Bytes) (missing : Bool) (policy : Api.WorkloadPolicy) : Plan :=
  match applyExecutablesToPolicy policy.name action containerName executables
      (decodedRules missing policy.rulesByContainer) with
  | .error e => .refuse e
  | .ok (_, false) => .unchanged .noChanges
  | .ok (rulesByContainer, true) =>
    let allowed := ((rulesByContainer.lookup containerName).map WorkloadPolicyRules.allowed).getD []
    .update
      { policy := { policy with rulesByContainer }
        preview := [.wouldExec action, .finalAllowed containerName allowed]
        success := .updated }

/-! ## `ack` -/

def findViolationByID (violations : List ViolationRecord) (id : Int) :
    Except CommandErr ViolationRecord :=
  match violations.find? fun v => v.id = id with
  | some v => .ok v
  | none => .error (.violationNotFound id)

def violationAcknowledgeAnnotationKey (id : Int) : String :=
  violationAcknowledgePrefix ++ toString id

/-- `strings.TrimSpace`. -/
def trimSpace (cs : List Char) : List Char := (cs.dropWhile isSpace).rdropWhile isSpace

/-- `resolveAckReason`: the value of `--reason`, or else the first line of the input, which must end
in a newline. -/
def resolveAckReason (flag : Option String) (stdin : String) : Except CommandErr String :=
  let given : Except CommandErr (List Char) :=
    match flag with
    | some reason => .ok reason.toList
    | none =>
      if '\n' ∈ stdin.toList then
        .ok ((stdin.toList.takeWhile (· ≠ '\n')).rdropWhile fun c => c = '\r' || c = '\n')
      else .error .reasonUnread
  match given with
  | .error e => .error e
  | .ok cs =>
    if trimSpace cs = [] then .error .reasonRequired else .ok (String.ofList (trimSpace cs))

/-- `applyAckAnnotation`: the key, and the annotations if they change. -/
def applyAckAnnotation (annotations : GoMap String String) (violationID : Int) (reason : String) :
    String × Option (GoMap String String) :=
  let annotationKey := violationAcknowledgeAnnotationKey violationID
  if annotations.lookup annotationKey = some reason then (annotationKey, none)
  else (annotationKey, some (annotations.insert annotationKey reason))

def runPolicyAck (violationID : Int) (flag : Option String) (stdin : String)
    (policy : Api.WorkloadPolicy) : Plan :=
  match findViolationByID policy.status.violations violationID with
  | .error e => .refuse e
  | .ok violation =>
    match resolveAckReason flag stdin with
    | .error e => .refuse e
    | .ok reason =>
      match applyAckAnnotation policy.annotations violationID reason with
      | (_, none) => .unchanged .noChanges
      | (annotationKey, some annotations) =>
        .update
          { policy := { policy with annotations }
            preview :=
              [.wouldAck violationID, .annotated annotationKey reason, .violation violation]
            success := .acknowledged violationID
            closing := [.nothingPersisted] }

/-! ## `protect` and `monitor` -/

def runPolicyModeSet (targetMode : Mode) (policy : Api.WorkloadPolicy) : Plan :=
  if policy.mode = targetMode then .unchanged (.alreadyInMode policy.mode)
  else
    .update
      { policy := { policy with mode := targetMode }
        preview := [.wouldSetMode targetMode]
        success := .modeSet targetMode }

/-! ## The commands -/

abbrev ViolationID := { n : Int // -2 ^ 63 ≤ n ∧ n < 2 ^ 63 }

/-- A command with its arguments; `missing` is what it finds in the place of no rules
(`decodedRules`). -/
inductive Command
  | exec (action : PolicyExecAction) (containerName : ContainerName) (executables : List Bytes)
    (missing : Bool)
  | ack (violationID : ViolationID) (reason : Option String) (stdin : String)
  | setMode (mode : Mode)

def Command.plan : Command → Api.WorkloadPolicy → Plan
  | .exec action containerName executables missing =>
    runPolicyExec action containerName executables missing
  | .ack violationID reason stdin => runPolicyAck violationID.val reason stdin
  | .setMode mode => runPolicyModeSet mode

def Edit.report (e : Edit) (dryRun : Bool) : Option WriteErr → Except CommandErr (List Line)
  | none =>
    .ok ((if dryRun then e.preview else []) ++ e.success :: if dryRun then e.closing else [])
  | some .conflict => .error (.modifiedConcurrently e.policy.toObjectMeta)
  | some _ => .error (.updateFailed e.policy.toObjectMeta)

/-! ## One policy under many commands -/

/-- A command between its two requests, with the version that it has read. -/
structure Pending where
  command : Command
  dryRun : Bool
  version : Nat
  edit : Edit

/-- What a write does to the spec: it is that of a command, or somebody replaces the spec. -/
inductive SpecEdit
  | command (c : Command)
  | replace (mode : Mode) (rulesByContainer : GoMap ContainerName WorkloadPolicyRules)

/-- A write that was carried out: the policy that was stored, and the one that took its place. -/
structure Commit where
  edit : SpecEdit
  before : Api.WorkloadPolicy
  after : Api.WorkloadPolicy

/-- `log` and `results` are history variables: the writes of users in the order they were carried
out, and how the commands have ended. The `Get` of a command returns a version that may be behind,
or fails; the generation of an `Update` is chosen by the API server. -/
structure CommandRun (ν : Type) where
  run : PolicyRun
  pending : ν → Option Pending := fun _ => none
  log : List Commit := []
  results : List (Command × Bool × Except CommandErr (List Line)) := []

inductive CommandOp (ν : Type)
  | get (who : ν) (command : Command) (dryRun : Bool) (lag : Option Nat)
  | update (who : ν) (generation : Int) (answer : Answer)
  | policy (op : PolicyOp)

namespace CommandRun

variable {ν : Type}

def start (wp : Api.WorkloadPolicy) : CommandRun ν := { run := .start wp }

/-- The API server on an `Update`. The version must be the one that is stored, also for a dry run,
which writes nothing. -/
def carryOut (p : Pending) (generation : Int) (s : PolicyRun) : Except WriteErr PolicyRun :=
  if p.version ≠ s.history.length then .error .conflict
  else if p.dryRun then .ok s
  else
    .ok (s.step (.edit p.edit.policy.mode p.edit.policy.rulesByContainer generation
      p.edit.policy.annotations))

/-- A user's write is noted. -/
def commit (s : CommandRun ν) (edit : SpecEdit) (run : PolicyRun) : CommandRun ν :=
  { s with run, log := s.log ++ [⟨edit, s.run.stored, run.stored⟩] }

variable [DecidableEq ν]

def finish (s : CommandRun ν) (who : ν) (command : Command) (dryRun : Bool)
    (result : Except CommandErr (List Line)) : CommandRun ν :=
  { s with
    pending := Function.update s.pending who none
    results := s.results ++ [(command, dryRun, result)] }

def stepGet (s : CommandRun ν) (who : ν) (command : Command) (dryRun : Bool)
    (lag : Option Nat) : CommandRun ν :=
  match lag with
  | none => s.finish who command dryRun (.error (.getFailed s.run.stored.toObjectMeta))
  | some lag =>
    match s.run.history[lag]? with
    | none => s
    | some policy =>
      match command.plan policy with
      | .refuse e => s.finish who command dryRun (.error e)
      | .unchanged line => s.finish who command dryRun (.ok [line])
      | .update edit =>
        let version := s.run.history.length - lag
        { s with
          pending := Function.update s.pending who (some { command, dryRun, version, edit }) }

def stepUpdate (s : CommandRun ν) (who : ν) (generation : Int) (answer : Answer) :
    CommandRun ν :=
  match s.pending who with
  | none => s
  | some p =>
    let res := attempt answer (carryOut p generation) s.run
    let s := if res.applied && !p.dryRun then s.commit (.command p.command) res.state else s
    s.finish who p.command p.dryRun (p.edit.report p.dryRun res.error)

def stepPolicy (s : CommandRun ν) (op : PolicyOp) : CommandRun ν :=
  match op with
  | .edit mode rulesByContainer _ _ => s.commit (.replace mode rulesByContainer) (s.run.step op)
  | _ => { s with run := s.run.step op }

def step (op : CommandOp ν) (s : CommandRun ν) : CommandRun ν :=
  match op with
  | .get who command dryRun lag => s.stepGet who command dryRun lag
  | .update who generation answer => s.stepUpdate who generation answer
  | .policy op => s.stepPolicy op

end CommandRun

end RuntimeEnforcer.Kubectlplugin
