import RuntimeEnforcer.Api.Types

/-!
# A policy on its nodes

`api/v1alpha1/policy_node_status.go`: what the nodes report, counted and listed. At most twenty
nodes are listed by name, the last of them a marker that there are more.
-/

set_option autoImplicit false

namespace RuntimeEnforcer.Api

open Lib

def maxNodesWithIssues : Nat := 20

def maxTransitioningNodes : Nat := 20

def truncationString : String := "..."

def truncationMessage : String := "Maximum number of nodes with issues reached"

inductive StatusErr
  | unknownNodeStatus (code : PolicyCode) (nodeName : String)
  | inconsistent (total successful transitioning failed : Nat)
  | recompute (policy : NamespacedPolicyName) (e : StatusErr)

def StatusErr.error : StatusErr → String
  | .unknownNodeStatus code nodeName =>
    s!"unknown node status state {code.string.quote} for node {nodeName.quote}"
  | .inconsistent total successful transitioning failed =>
    s!"inconsistent node stats, total: {total} != " ++
      s!"successful({successful})+transitioning({transitioning})+failed({failed})"
  | .recompute policy e => s!"failed to compute node status for policy {policy}: " ++ e.error

def transitionTime (previous current : PolicyStatus) (now : Time) : Time :=
  if previous.code = current.code ∧ previous.since ≠ Time.zero then previous.since else now

namespace WorkloadPolicyStatus

def addTransitioningNode (s : WorkloadPolicyStatus) (status : PolicyNodeStatus)
    (previous : PolicyStatus) (now : Time) : WorkloadPolicyStatus :=
  let s := { s with transitioningNodes := s.transitioningNodes + 1 }
  if s.nodesTransitioning.length < maxTransitioningNodes - 1 then
    let status := { status with since := transitionTime previous status.toPolicyStatus now }
    { s with nodesTransitioning := s.nodesTransitioning ++ [status] }
  else if s.nodesTransitioning.length = maxTransitioningNodes - 1 then
    { s with nodesTransitioning := s.nodesTransitioning ++ [{ nodeName := truncationString }] }
  else s

def addNodeIssue (s : WorkloadPolicyStatus) (nodeName : String) (status previous : PolicyStatus)
    (now : Time) : WorkloadPolicyStatus :=
  let s := { s with failedNodes := s.failedNodes + 1 }
  if s.nodesWithIssues.entries.length < maxNodesWithIssues - 1 then
    let status := { status with since := transitionTime previous status now }
    { s with nodesWithIssues := s.nodesWithIssues.insert nodeName status }
  else if s.nodesWithIssues.entries.length = maxNodesWithIssues - 1 then
    { s with
      nodesWithIssues := s.nodesWithIssues.insert truncationString
        { code := .failed, message := truncationMessage } }
  else s

def resetPolicyNodeStatus (s : WorkloadPolicyStatus) (totalNodes : Nat) : WorkloadPolicyStatus :=
  { s with
    nodesWithIssues := ∅
    nodesTransitioning := []
    totalNodes := totalNodes
    successfulNodes := 0
    failedNodes := 0
    transitioningNodes := 0 }

def nodeStatus (s : WorkloadPolicyStatus) (nodeName : String) : PolicyStatus :=
  match s.nodesWithIssues.lookup nodeName with
  | some ps => ps
  | none =>
    match s.nodesTransitioning.find? fun ns => ns.nodeName = nodeName with
    | some ns => ns.toPolicyStatus
    | none => {}

def processNode (previous : WorkloadPolicyStatus) (now : Time) (s : WorkloadPolicyStatus)
    (status : PolicyNodeStatus) : Except StatusErr WorkloadPolicyStatus :=
  match status.code with
  | .ready => .ok { s with successfulNodes := s.successfulNodes + 1 }
  | .transitioning =>
    .ok (s.addTransitioningNode status (previous.nodeStatus status.nodeName) now)
  | .failed | .missing =>
    .ok (s.addNodeIssue status.nodeName { code := status.code, message := status.message }
      (previous.nodeStatus status.nodeName) now)
  | .unknown => .error (.unknownNodeStatus status.code status.nodeName)

/-- The phase the counters give; the one before stays when there is no reason for any. -/
def phaseOf (s : WorkloadPolicyStatus) : Phase :=
  if s.successfulNodes = s.totalNodes then .ready
  else if 0 < s.failedNodes then .failed
  else if 0 < s.transitioningNodes then .transitioning
  else s.phase

def processPolicyNodeStatus (s previous : WorkloadPolicyStatus) (nodes : List PolicyNodeStatus)
    (now : Time) : Except StatusErr WorkloadPolicyStatus := do
  let s ← nodes.foldlM (processNode previous now) (s.resetPolicyNodeStatus nodes.length)
  let s :=
    { s with
      nodesTransitioning := s.nodesTransitioning.insertionSort fun a b => a.nodeName ≤ b.nodeName }
  if s.totalNodes ≠ s.failedNodes + s.transitioningNodes + s.successfulNodes then
    .error (.inconsistent s.totalNodes s.successfulNodes s.transitioningNodes s.failedNodes)
  else .ok { s with phase := s.phaseOf }

end WorkloadPolicyStatus

end RuntimeEnforcer.Api
