import Mathlib.Data.List.DropRight
import RuntimeEnforcer.Lib.ByteBuffer
import RuntimeEnforcer.Lib.GoMap
import RuntimeEnforcer.Lib.Overlap

/-!
# The workload of a pod

`internal/podworkload/workload.go` and `internal/types/workloadkind`: which workload a pod belongs
to, read off its name and its labels. Names are byte strings, since the source cuts them at byte
offsets; a slice out of bounds and the explicit `panic` are the two ways the parser can fail to
return.
-/

set_option autoImplicit false

namespace RuntimeEnforcer.Podworkload

open Lib

inductive Kind
  | pod
  | deployment
  | daemonSet
  | statefulSet
  | replicaSet
  | job
  | cronJob
  | unknown
  deriving DecidableEq, Repr

def Kind.string : Kind → String
  | .pod => "Pod"
  | .deployment => "Deployment"
  | .daemonSet => "DaemonSet"
  | .statefulSet => "StatefulSet"
  | .replicaSet => "ReplicaSet"
  | .job => "Job"
  | .cronJob => "CronJob"
  | .unknown => "Unknown"

/-- `none` is the error for an unknown kind. -/
def Kind.shortName : Kind → Option String
  | .deployment => some "deploy"
  | .replicaSet => some "rs"
  | .daemonSet => some "ds"
  | .cronJob => some "cronjob"
  | .job => some "job"
  | .statefulSet => some "sts"
  | .pod => none
  | .unknown => none

inductive Panic
  | sliceBounds (n : Int) (length : Nat)
  | missingDash (podName : Bytes)
  deriving DecidableEq, Repr

def podTemplateHashLabel : String := "pod-template-hash"
def oldJobNameLabel : String := "job-name"
def newJobNameLabel : String := "batch.kubernetes.io/job-name"
def statefulsetLabel : String := "statefulset.kubernetes.io/pod-name"
def daemonsetLabel : String := "controller-revision-hash"

def dash : UInt8 := 0x2d
def newline : UInt8 := 0x0a

def truncatedSuffix : Bytes := [0x2d, 0x74, 0x72, 0x6e, 0x63]

def randomSuffixLen : Nat := 5
def minTemplateHashMatch : Nat := 5

def sliceTo (s : Bytes) (n : Int) : Except Panic Bytes :=
  if 0 ≤ n ∧ n ≤ s.length then .ok (s.take n.toNat) else .error (.sliceBounds n s.length)

/-- `strings.TrimSuffix(s, "-")`. -/
def trimDash (s : Bytes) : Bytes := if [dash] <:+ s then s.take (s.length - 1) else s

/-- `strings.LastIndex(s, "-")`, `none` for -1. -/
def lastDash (s : Bytes) : Option Nat := (s.reverse.idxOf? dash).map fun i => s.length - 1 - i

def parseDeployment (podName templateHash : Bytes) : Except Panic (Bytes × Kind) := do
  let podPrefixWithPartialHash ← sliceTo podName ((podName.length : Int) - randomSuffixLen)
  let exactPattern := dash :: templateHash ++ [dash]
  -- the loop over `i`, from the whole pattern down to its first five bytes
  match longestMatch minTemplateHashMatch exactPattern podPrefixWithPartialHash with
  | some i =>
    return (podPrefixWithPartialHash.take (podPrefixWithPartialHash.length - i), .deployment)
  | none => return (trimDash podPrefixWithPartialHash ++ truncatedSuffix, .deployment)

def parseDaemonSet (podName : Bytes) : Except Panic (Bytes × Kind) := do
  let nameWithoutSuffix ← sliceTo podName ((podName.length : Int) - randomSuffixLen)
  if [dash] <:+ nameWithoutSuffix then
    return (nameWithoutSuffix.take (nameWithoutSuffix.length - 1), .daemonSet)
  return (nameWithoutSuffix ++ truncatedSuffix, .daemonSet)

def isDigit (c : UInt8) : Bool := 0x30 ≤ c && c ≤ 0x39

/-- The group of `(.+)-\d{8,10}$`: the digits at the end are 8 to 10 with a dash in front of them,
and in front of the dash is something that is no newline (a dot matches none, so the group starts
behind the last one). -/
def cronJobName (jobName : Bytes) : Option Bytes :=
  let digits := jobName.rtakeWhile isDigit
  match (jobName.rdropWhile isDigit).reverse with
  | [] => none
  | c :: before =>
    let name := (before.takeWhile (· ≠ newline)).reverse
    if c = dash ∧ 8 ≤ digits.length ∧ digits.length ≤ 10 ∧ name ≠ [] then some name else none

def parseJobCronJob (jobName : Bytes) : Bytes × Kind :=
  match cronJobName jobName with
  | some name => (name, .cronJob)
  | none => (jobName, .job)

def parseStatefulSet (podName : Bytes) : Except Panic (Bytes × Kind) :=
  match lastDash podName with
  | none => .error (.missingDash podName)
  | some lastDashIndex => .ok (podName.take lastDashIndex, .statefulSet)

/-- `getWorkloadInfo`: the first label that is there chooses the parser. -/
def getWorkloadInfo (podName : Bytes) (labels : GoMap String Bytes) :
    Except Panic (Bytes × Kind) :=
  match labels.lookup podTemplateHashLabel with
  | some hash => parseDeployment podName hash
  | none =>
    match labels.lookup statefulsetLabel with
    | some statefulPodName => parseStatefulSet statefulPodName
    | none =>
      match labels.lookup daemonsetLabel with
      | some _ => parseDaemonSet podName
      | none =>
        match labels.lookup oldJobNameLabel with
        | some jobName => .ok (parseJobCronJob jobName)
        | none =>
          match labels.lookup newJobNameLabel with
          | some jobName => .ok (parseJobCronJob jobName)
          | none => .ok (podName, .pod)

/-- `GetTruncatedWorkloadInfo`: name, kind, and whether the name was truncated. -/
def getTruncatedWorkloadInfo (podName : Bytes) (labels : GoMap String Bytes) :
    Except Panic (Bytes × Kind × Bool) := do
  let (workloadName, workloadKind) ← getWorkloadInfo podName labels
  return (workloadName, workloadKind, decide (truncatedSuffix <:+ workloadName))

end RuntimeEnforcer.Podworkload
