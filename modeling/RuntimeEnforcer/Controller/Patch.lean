import RuntimeEnforcer.Api.Violations
import RuntimeEnforcer.Lib.MergePatch

/-!
# Patching a policy

`processWorkloadPolicy` writes with two merge patches, both computed from the policy as it was read
(`client.MergeFrom`). The first goes to the status subresource and changes the status only, the
second to the object itself and changes everything but the status; of what the second names, only
the annotations can differ. Neither names a resource version, so each is applied to whatever is
stored.

A patch that was computed from the stored version leaves just the new one. From an older version it
names what the controller has changed since then and lays that over what others have written: a
number, a text or a whole list comes out as the one or the other (`patchValue`), and a map is
patched key by key (`patchMap`).
-/

set_option autoImplicit false

namespace RuntimeEnforcer.Api

open Lib

/-! ## Stored forms -/

def WorkloadPolicyStatus.stored (s : WorkloadPolicyStatus) : WorkloadPolicyStatus :=
  { s with
    nodesWithIssues := s.nodesWithIssues.map PolicyStatus.stored
    nodesTransitioning := s.nodesTransitioning.map PolicyNodeStatus.stored
    violations := s.violations.map ViolationRecord.stored
    acknowledgedViolations := s.acknowledgedViolations.map AcknowledgedViolationRecord.stored }

/-! ## The two patches -/

/-- One node under a patch. Its value is an object of its own: what is new to the map is laid over
what is there, and only empty texts are left out of it. -/
def patchNode (base new cur : Option PolicyStatus) : Option PolicyStatus :=
  match base, new with
  | none, none => cur
  | some _, none => none
  | none, some n =>
    let c := cur.getD {}
    some
      { code := patchValue .unknown n.code c.code
        message := patchValue "" n.message c.message
        since := n.since }
  | some b, some n =>
    if n = b then cur
    else
      let c := cur.getD {}
      some
        { code := patchValue b.code n.code c.code
          message := patchValue b.message n.message c.message
          since := patchValue b.since n.since c.since }

/-- The status `cur` under the patch from `base` to `new`. -/
def WorkloadPolicyStatus.patch (base new cur : WorkloadPolicyStatus) : WorkloadPolicyStatus where
  observedGeneration :=
    patchValue base.observedGeneration new.observedGeneration cur.observedGeneration
  nodesWithIssues := patchMap patchNode base.nodesWithIssues new.nodesWithIssues cur.nodesWithIssues
  totalNodes := patchValue base.totalNodes new.totalNodes cur.totalNodes
  successfulNodes := patchValue base.successfulNodes new.successfulNodes cur.successfulNodes
  failedNodes := patchValue base.failedNodes new.failedNodes cur.failedNodes
  transitioningNodes :=
    patchValue base.transitioningNodes new.transitioningNodes cur.transitioningNodes
  nodesTransitioning :=
    patchValue base.nodesTransitioning new.nodesTransitioning cur.nodesTransitioning
  phase := patchValue base.phase new.phase cur.phase
  violationCount := patchValue base.violationCount new.violationCount cur.violationCount
  activeViolationCount :=
    patchValue base.activeViolationCount new.activeViolationCount cur.activeViolationCount
  violations := patchValue base.violations new.violations cur.violations
  acknowledgedViolations :=
    patchValue base.acknowledgedViolations new.acknowledgedViolations cur.acknowledgedViolations

/-- `r.Status().Patch(ctx, newPolicy, patchBase)`, on the policy that is stored. -/
def patchStatus (patchBase newPolicy stored : WorkloadPolicy) : WorkloadPolicy :=
  { stored with
    status := WorkloadPolicyStatus.patch patchBase.status.stored newPolicy.status.stored
      stored.status.stored }

/-- `r.Patch(ctx, newPolicy, patchBase)`, on the policy that is stored. -/
def patchMetadata (patchBase newPolicy stored : WorkloadPolicy) : WorkloadPolicy :=
  { stored with
    annotations := patchMap patchValue patchBase.annotations newPolicy.annotations
      stored.annotations }

/-- How a patch ends for the controller. A request can fail after the server has carried it out. -/
inductive PatchResult
  | ok
  | notFound
  | failed (applied : Bool)
  deriving DecidableEq, Repr

def PatchResult.applied : PatchResult → Bool
  | .ok => true
  | .notFound => false
  | .failed applied => applied

/-! ## What a patch of the version that is stored does -/

section Current

variable {patchBase newPolicy stored : WorkloadPolicy}

theorem patchStatus_violations (h : patchBase.status = stored.status) :
    (patchStatus patchBase newPolicy stored).status.violations =
      newPolicy.status.violations.map ViolationRecord.stored := by
  rw [patchStatus, h]
  exact patchValue_self _ _

theorem patchStatus_acknowledged (h : patchBase.status = stored.status) :
    (patchStatus patchBase newPolicy stored).status.acknowledgedViolations =
      newPolicy.status.acknowledgedViolations.map AcknowledgedViolationRecord.stored := by
  rw [patchStatus, h]
  exact patchValue_self _ _

theorem patchStatus_count (h : patchBase.status.violationCount = stored.status.violationCount) :
    (patchStatus patchBase newPolicy stored).status.violationCount =
      newPolicy.status.violationCount := by
  show patchValue patchBase.status.violationCount newPolicy.status.violationCount
    stored.status.violationCount = _
  rw [h]
  exact patchValue_self _ _

theorem patchStatus_active (h : patchBase.status = stored.status) :
    (patchStatus patchBase newPolicy stored).status.activeViolationCount =
      newPolicy.status.activeViolationCount := by
  rw [patchStatus, h]
  exact patchValue_self _ _

end Current

end RuntimeEnforcer.Api
