import RuntimeEnforcer.Api.NodeStatus
import RuntimeEnforcer.Lib.Newest

/-!
# The violations of a policy

`api/v1alpha1/violation_record.go` and `RecomputeStatus` of `workloadpolicy_types.go`: scraped
violations are merged into the status by key, those the rules allow are cleared, and those an
annotation names by id are moved to the acknowledged ones.
-/

set_option autoImplicit false

namespace RuntimeEnforcer.Api

open Lib

def maxViolationRecords : Nat := 100

/-! ## Merging what was scraped -/

structure MergeState where
  violations : List ViolationRecord
  indexByKey : GoMap ViolationRecordKey Nat
  violationCount : Int

/-- The map from key to index; of two records of one key the later wins. -/
def indexByKey (violations : List ViolationRecord) : GoMap ViolationRecordKey Nat :=
  violations.zipIdx.foldl (fun m e => m.insert e.1.key e.2) ∅

/-- One more occurrence of the record. -/
def ViolationRecord.seenAgain (r v : ViolationRecord) : ViolationRecord :=
  { r with
    lastObservedTimestamp :=
      if r.lastObservedTimestamp < v.lastObservedTimestamp then v.lastObservedTimestamp
      else r.lastObservedTimestamp
    occurrences := int64Succ r.occurrences }

/-- The record of a violation seen for the first time. -/
def ViolationRecord.firstSeen (v : ViolationRecord) (id : Int) : ViolationRecord :=
  { v with id, occurrences := 1, firstObservedTimestamp := v.lastObservedTimestamp }

/-- One round of the loop of `mergeScrapedViolations`. -/
def MergeState.mergeViolation (s : MergeState) (v : ViolationRecord) : MergeState :=
  match s.indexByKey.lookup v.key with
  | some idx =>
    { s with
      violations := s.violations.modify idx (·.seenAgain v)
      violationCount := int64Succ s.violationCount }
  | none =>
    { violations := s.violations ++ [v.firstSeen s.violationCount]
      indexByKey := s.indexByKey.insert v.key s.violations.length
      violationCount := int64Succ s.violationCount }

def WorkloadPolicyStatus.mergeLoop (s : WorkloadPolicyStatus) (scraped : List ViolationRecord) :
    MergeState :=
  scraped.foldl MergeState.mergeViolation ⟨s.violations, indexByKey s.violations, s.violationCount⟩

def WorkloadPolicyStatus.mergeScrapedViolations (s : WorkloadPolicyStatus)
    (scraped : List ViolationRecord) : WorkloadPolicyStatus :=
  let m := s.mergeLoop scraped
  { s with
    violations := newest ViolationRecord.lastObservedTimestamp maxViolationRecords m.violations
    violationCount := m.violationCount }

/-! ## What the rules allow -/

/-- Whether the rules of the violation's container allow it now. -/
def WorkloadPolicy.clears (wp : WorkloadPolicy) (v : ViolationRecord) : Bool :=
  match wp.rulesByContainer.lookup v.containerName with
  | none => false
  | some rules =>
    if v.foreignRoot then rules.allowForeignRootExec else decide (v.executablePath ∈ rules.allowed)

def WorkloadPolicy.clearAllowedViolations (wp : WorkloadPolicy) : WorkloadPolicy :=
  { wp with
    status := { wp.status with violations := wp.status.violations.filter fun v => !wp.clears v } }

/-! ## Acknowledgements -/

def violationAcknowledgePrefix : String := "runtimeenforcer.kubewarden.io/acknowledge-"

/-- One or more decimal digits. -/
def parseDigits (ds : List Char) : Option Nat :=
  if ds = [] then none
  else ds.foldlM (fun n c => if c.isDigit then some (10 * n + (c.toNat - 48)) else none) 0

/-- `strconv.ParseInt(s, 10, 64)`. -/
def parseInt : List Char → Option Int
  | '-' :: ds => (parseDigits ds).bind fun n => if n ≤ 2 ^ 63 then some (-(n : Int)) else none
  | '+' :: ds => (parseDigits ds).bind fun n => if n < 2 ^ 63 then some (n : Int) else none
  | ds => (parseDigits ds).bind fun n => if n < 2 ^ 63 then some (n : Int) else none

/-- The id of the violation that an annotation asks to acknowledge. -/
def acknowledgedID (annotationKey : String) : Option Int :=
  if violationAcknowledgePrefix.toList.isPrefixOf annotationKey.toList then
    parseInt (annotationKey.toList.drop violationAcknowledgePrefix.length)
  else none

structure AnnotationInfo where
  annotationKey : String
  reason : String

/-- The requests among the annotations, in the order they are visited; of two requests for one id
the later wins. -/
def acknowledges (annotations : List (Entry String String)) : GoMap Int AnnotationInfo :=
  annotations.foldl (fun m e =>
    match acknowledgedID e.1 with
    | some id => m.insert id ⟨e.1, e.2⟩
    | none => m) ∅

/-- The record of an acknowledged violation. -/
def acknowledgeAs (requests : GoMap Int AnnotationInfo) (now : Time) (v : ViolationRecord) :
    Option AcknowledgedViolationRecord :=
  (requests.lookup v.id).map fun info =>
    { violation := v, reason := info.reason, acknowledgedAt := now }

/-- The annotations without those of the requests that are met. -/
def dropMet (requests : GoMap Int AnnotationInfo) (violations : List ViolationRecord)
    (annotations : GoMap String String) : GoMap String String :=
  violations.foldl (fun m v =>
    match requests.lookup v.id with
    | some info => m.erase info.annotationKey
    | none => m) annotations

/-- `acknowledgeViolationsFromAnnotations`; `order` is the order of the loop over the
annotations. -/
def WorkloadPolicy.acknowledgeViolationsFromAnnotations (wp : WorkloadPolicy)
    (order : Order String String) (now : Time) :
    WorkloadPolicy × List AcknowledgedViolationRecord :=
  if wp.annotations.entries = [] then (wp, [])
  else
    let requests := acknowledges (order.range 0 wp.annotations)
    if requests.entries = [] then (wp, [])
    else
      let acknowledged := wp.status.violations.filterMap (acknowledgeAs requests now)
      ({ wp with
          annotations := dropMet requests wp.status.violations wp.annotations
          status :=
            { wp.status with
              violations := wp.status.violations.filter fun v => (requests.lookup v.id).isNone
              acknowledgedViolations :=
                newest AcknowledgedViolationRecord.acknowledgedAt maxViolationRecords
                  (wp.status.acknowledgedViolations ++ acknowledged) } },
        acknowledged)

/-! ## The whole -/

def WorkloadPolicy.recomputeStatus (wp : WorkloadPolicy) (order : Order String String)
    (nodes : List PolicyNodeStatus) (scrapedViolations : List ViolationRecord) (now : Time) :
    Except StatusErr (WorkloadPolicy × List AcknowledgedViolationRecord) :=
  match wp.status.processPolicyNodeStatus wp.status nodes now with
  | .error e => .error (.recompute wp.namespacedName e)
  | .ok status =>
    let wp := { wp with status := status.mergeScrapedViolations scrapedViolations }
    let wp := wp.clearAllowedViolations
    let (wp, acknowledged) := wp.acknowledgeViolationsFromAnnotations order now
    .ok ({ wp with
        status :=
          { wp.status with
            activeViolationCount := wp.status.violations.length
            observedGeneration := wp.generation } },
      acknowledged)

end RuntimeEnforcer.Api
