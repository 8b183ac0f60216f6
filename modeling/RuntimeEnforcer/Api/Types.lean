import RuntimeEnforcer.Lib.Search
import RuntimeEnforcer.Resolver.Types

/-!
# The policy object and its status

The types of `api/v1alpha1`: `violation_record.go`, `policy_node_status.go` and
`workloadpolicy_types.go`. The spec is the one the agents read; the controller adds the generation,
the annotations and the status.

A `metav1.Time` is its nanoseconds since the Unix epoch. An API object is stored as JSON, which
keeps a time to the second; `stored` is what is read back of a value that was written.
-/

set_option autoImplicit false

namespace RuntimeEnforcer.Api

open Lib

/-! ## Times and counters -/

/-- `metav1.Time`, in nanoseconds since the epoch. -/
abbrev Time := Int

/-- `time.Time{}`, the first of January of the year 1. -/
def Time.zero : Time := -62135596800 * 1000000000

/-- A time after it was written as JSON and read back. -/
def Time.stored (t : Time) : Time := t / 1000000000 * 1000000000

theorem Time.stored_mono {t t' : Time} (h : t ≤ t') : Time.stored t ≤ Time.stored t' :=
  Int.mul_le_mul_of_nonneg_right (Int.ediv_le_ediv (by decide) h) (by decide)

theorem Time.stored_le (t : Time) : Time.stored t ≤ t := Int.ediv_mul_le t (by decide)

@[simp] theorem Time.stored_stored (t : Time) : Time.stored (Time.stored t) = Time.stored t :=
  congrArg (· * 1000000000) (Int.mul_ediv_cancel (t / 1000000000) (by decide))

/-- Adding one to an `int64`. -/
def int64Succ (n : Int) : Int := if n = 2 ^ 63 - 1 then -2 ^ 63 else n + 1

theorem int64Succ_of_lt {n : Int} (h : n < 2 ^ 63 - 1) : int64Succ n = n + 1 :=
  if_neg (by omega)

/-! ## Violations -/

structure ViolationRecordKey where
  podName : String
  containerName : ContainerName
  executablePath : Bytes
  foreignRoot : Bool
  action : String
  deriving DecidableEq

structure ViolationRecord where
  id : Int := 0
  lastObservedTimestamp : Time
  occurrences : Int := 0
  firstObservedTimestamp : Time := Time.zero
  podName : String
  containerName : ContainerName
  executablePath : Bytes
  foreignRoot : Bool := false
  nodeName : String
  action : String
  workloadName : String := ""
  workloadKind : String := ""
  deriving DecidableEq

def ViolationRecord.key (r : ViolationRecord) : ViolationRecordKey where
  podName := r.podName
  containerName := r.containerName
  executablePath := r.executablePath
  foreignRoot := r.foreignRoot
  action := r.action

def ViolationRecord.stored (r : ViolationRecord) : ViolationRecord :=
  { r with
    lastObservedTimestamp := Time.stored r.lastObservedTimestamp
    firstObservedTimestamp := Time.stored r.firstObservedTimestamp }

structure AcknowledgedViolationRecord where
  violation : ViolationRecord
  reason : String
  acknowledgedAt : Time
  deriving DecidableEq

def AcknowledgedViolationRecord.stored (a : AcknowledgedViolationRecord) :
    AcknowledgedViolationRecord :=
  { a with violation := a.violation.stored, acknowledgedAt := Time.stored a.acknowledgedAt }

@[simp] theorem ViolationRecord.stored_id (r : ViolationRecord) : r.stored.id = r.id := rfl

@[simp] theorem ViolationRecord.stored_key (r : ViolationRecord) : r.stored.key = r.key := rfl

@[simp] theorem ViolationRecord.stored_stored (r : ViolationRecord) :
    r.stored.stored = r.stored := by
  simp [ViolationRecord.stored]

@[simp] theorem AcknowledgedViolationRecord.stored_violation (a : AcknowledgedViolationRecord) :
    a.stored.violation = a.violation.stored := rfl

@[simp] theorem AcknowledgedViolationRecord.stored_stored (a : AcknowledgedViolationRecord) :
    a.stored.stored = a.stored := by
  simp [AcknowledgedViolationRecord.stored]

/-! ## Nodes -/

inductive PolicyCode
  | unknown
  | ready
  | missing
  | failed
  | transitioning
  deriving DecidableEq, Repr

def PolicyCode.string : PolicyCode → String
  | .unknown => ""
  | .ready => "Ready"
  | .missing => "Missing"
  | .failed => "Failed"
  | .transitioning => "Transitioning"

structure PolicyStatus where
  code : PolicyCode := .unknown
  message : String := ""
  since : Time := Time.zero
  deriving DecidableEq

structure PolicyNodeStatus extends PolicyStatus where
  nodeName : String
  deriving DecidableEq

def PolicyStatus.stored (s : PolicyStatus) : PolicyStatus := { s with since := Time.stored s.since }

def PolicyNodeStatus.stored (s : PolicyNodeStatus) : PolicyNodeStatus :=
  { s with since := Time.stored s.since }

/-- `Phase`; a status that was never computed has none. -/
inductive Phase
  | unset
  | transitioning
  | failed
  | ready
  deriving DecidableEq, Repr

/-! ## The object -/

structure WorkloadPolicyStatus where
  observedGeneration : Int := 0
  nodesWithIssues : GoMap String PolicyStatus := ∅
  totalNodes : Nat := 0
  successfulNodes : Nat := 0
  failedNodes : Nat := 0
  transitioningNodes : Nat := 0
  nodesTransitioning : List PolicyNodeStatus := []
  phase : Phase := .unset
  violationCount : Int := 0
  activeViolationCount : Nat := 0
  violations : List ViolationRecord := []
  acknowledgedViolations : List AcknowledgedViolationRecord := []

/-- Every record of the status, acknowledged or not. -/
def WorkloadPolicyStatus.records (s : WorkloadPolicyStatus) : List ViolationRecord :=
  s.violations ++ s.acknowledgedViolations.map AcknowledgedViolationRecord.violation

/-- `WorkloadPolicy`, with what the controller reads and writes of its metadata. -/
structure WorkloadPolicy extends RuntimeEnforcer.WorkloadPolicy where
  generation : Int := 1
  annotations : GoMap String String := ∅
  status : WorkloadPolicyStatus := {}

end RuntimeEnforcer.Api
