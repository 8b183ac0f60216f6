import RuntimeEnforcer.Agent.ViolationBuffer
import RuntimeEnforcer.Controller.Patch
import RuntimeEnforcer.Lib.Run

/-!
# Agents, policies, and the sync between them

`internal/controller/workloadpolicystatus_sync.go` and `workloadpolicystatus_helpers.go`, with the
agents they ask and the policies that are stored. A sync lists the policies, asks the nodes how each
policy is doing, drains the nodes' buffers one by one, and then processes the policies it has listed
one by one. Each of these is a step of its own, so that violations are recorded and policies come,
change and go between any two of them.

The nodes are any finite type; a node that has left is one with an empty buffer.

A drain empties the buffer whether or not its answer gets through, and what a sync holds is gone
when it ends. So a violation counts from the status patch of its policy on and not before; which
steps lose one, and that no others do, is in `Proof.Conservation`.
-/

set_option autoImplicit false

namespace RuntimeEnforcer.Api

open Lib
open Violationbuf (ScrapedViolation scrapeViolations newBuffer)

/-! ## What the nodes say of a policy

A node without a client, one whose call fails and one that answers with no policy at all count the
same: the policy is missing there, with a message that tells them apart. An answer about the policy
is held against the mode in the spec, and a policy that is ready in the other mode is in transition.
A state that the controller does not know is a failure. -/

/-- What the controller learns from a node. There is no client for its agent, `ListPoliciesStatus`
has failed, or there is an answer; a status in it may be a nil pointer. -/
inductive NodeReport
  | noClient
  | failed
  | policies (statuses : GoMap NamespacedPolicyName (Option RuntimeEnforcer.PolicyStatus))

def policyStateString : PolicyState → String
  | .unspecified => "POLICY_STATE_UNSPECIFIED"
  | .ready => "POLICY_STATE_READY"
  | .error => "POLICY_STATE_ERROR"
  | .unrecognized number _ => toString number

def policyNodeStatus (expectedMode : Mode) :
    Option RuntimeEnforcer.PolicyStatus → Except String (PolicyCode × String)
  | none => .ok (.missing, "policy not found on the node")
  | some policyStatus =>
    match policyStatus.state with
    | .ready =>
      if policyStatus.mode = expectedMode.toProto then .ok (.ready, "")
      else .ok (.transitioning, "")
    | .error =>
      .ok (.failed,
        if policyStatus.message = "" then "policy is in error state" else policyStatus.message)
    | .unspecified | .unrecognized .. =>
      .error s!"unknown policy state {(policyStateString policyStatus.state).quote}"

/-- The status of one policy on one node. -/
def nodeStatusOf (nodeName : String) (report : NodeReport) (wp : WorkloadPolicy) :
    PolicyNodeStatus :=
  match report with
  | .noClient => { nodeName, code := .missing, message := "No agent client available" }
  | .failed => { nodeName, code := .missing, message := "failed to get policies status" }
  | .policies statuses =>
    if statuses.entries = [] then
      { nodeName, code := .missing, message := "no policies found on the node" }
    else
      match policyNodeStatus wp.mode (statuses.lookup wp.namespacedName).join with
      | .ok (code, message) => { nodeName, code, message }
      | .error e => { nodeName, code := .failed, message := e }

def appendAt {κ α : Type} [DecidableEq κ] (m : GoMap κ (List α)) (k : κ) (x : α) :
    GoMap κ (List α) :=
  m.insert k ((m.lookup k).getD [] ++ [x])

/-- `getNodeStatusByPolicy`, with the nodes in the order they are visited in. -/
def getNodeStatusByPolicy (reports : List (String × NodeReport)) (policies : List WorkloadPolicy) :
    GoMap NamespacedPolicyName (List PolicyNodeStatus) :=
  let start := policies.foldl (fun m wp => m.insert wp.namespacedName []) ∅
  reports.foldl (fun m r =>
    policies.foldl (fun m wp => appendAt m wp.namespacedName (nodeStatusOf r.1 r.2 wp)) m) start

/-! ## What the nodes have seen

The answers are sorted by the policy that the agent names, before anything is known about it: what
is filed under a policy that the sync has not listed is never read. -/

/-- The record the controller makes of a violation. -/
def toRecord (v : ScrapedViolation) : ViolationRecord where
  lastObservedTimestamp := v.timestamp
  podName := v.podName
  containerName := v.containerName
  executablePath := v.executablePath
  foreignRoot := v.foreignRoot
  nodeName := v.nodeName
  action := v.action
  workloadName := v.workloadName
  workloadKind := v.workloadKind

/-- The loop of `getViolationsByPolicy` over one node's answer. -/
def addScraped (violationsByPolicy : GoMap NamespacedPolicyName (List ViolationRecord))
    (pbViolations : List ScrapedViolation) : GoMap NamespacedPolicyName (List ViolationRecord) :=
  pbViolations.foldl (fun m v => appendAt m v.policyName (toRecord v)) violationsByPolicy

/-! ## A sync

`sync` is one goroutine, so there is one stage for the whole controller. It processes the policies
as it has listed them, however old they are by then, and an error with one of them only ends the
processing of that one. -/

/-- A sync that has asked the nodes for their statuses: the policies still to process, the nodes
still to scrape, and what it holds for the policies. -/
structure Sync (ν : Type) where
  items : List WorkloadPolicy
  nodeStatusByPolicy : GoMap NamespacedPolicyName (List PolicyNodeStatus)
  clients : List ν
  violationsByPolicy : GoMap NamespacedPolicyName (List ViolationRecord) := ∅

/-- Where the controller is. A sync lists the policies and then asks the nodes. While it runs the
nodes are scraped one by one, and once they all are the policies are processed; the status of a
policy is patched before its metadata. -/
inductive Stage (ν : Type)
  | idle
  | listed (items : List WorkloadPolicy)
  | running (sync : Sync ν)
  | patched (sync : Sync ν) (wp newPolicy : WorkloadPolicy)

/-- What becomes of a call of `ScrapeViolations`: an agent may answer and the answer be lost, or it
may not be reached. -/
inductive ScrapeResult
  | delivered
  | lost
  | unreached
  deriving DecidableEq, Repr

/-- The agents, the API server and the controller. `recorded` is a history variable: the policy of
each violation that was recorded. -/
structure Cluster (ν : Type) where
  agents : ν → Violationbuf.Buffer := fun _ => newBuffer
  store : GoMap NamespacedPolicyName WorkloadPolicy := ∅
  stage : Stage ν := .idle
  recorded : List NamespacedPolicyName := []

/-- The steps of the agents, of the users and of `sync`. The pool gives out its clients twice, and
the nodes report in between; if it fails, `sync` returns (`abort`). A step of the scraping is about
the next node, and one of the processing about the next policy, up to the patch of its status or
with that of its metadata. -/
inductive ClusterOp (ν : Type)
  | record (node : ν) (rec : Violationbuf.ViolationRecord)
  | create (wp : WorkloadPolicy)
  | edit (name : NamespacedPolicyName) (mode : Mode)
    (rulesByContainer : GoMap ContainerName WorkloadPolicyRules) (generation : Int)
    (annotations : GoMap String String)
  | delete (name : NamespacedPolicyName)
  | list (order : Order NamespacedPolicyName WorkloadPolicy)
  | pool (reports : List (String × NodeReport)) (clients : List ν)
  | abort
  | scrape (res : ScrapeResult)
  | patchStatus (order : Order String String) (now : Time) (res : PatchResult)
  | patchMetadata (res : PatchResult)

variable {ν : Type}

/-- What a sync holds for a policy. -/
def Sync.violations (sync : Sync ν) (name : NamespacedPolicyName) : List ViolationRecord :=
  (sync.violationsByPolicy.lookup name).getD []

def Sync.nodes (sync : Sync ν) (name : NamespacedPolicyName) : List PolicyNodeStatus :=
  (sync.nodeStatusByPolicy.lookup name).getD []

/-- The sync goes on with the next policy, if there is one. -/
def Sync.next (sync : Sync ν) : Stage ν := if sync.items.isEmpty then .idle else .running sync

namespace Cluster

/-- A patch reaches the API server: there it is applied to the policy that has the name, if it is
applied. -/
def applyPatch (s : Cluster ν) (name : NamespacedPolicyName) (res : PatchResult)
    (patch : WorkloadPolicy → WorkloadPolicy) : Cluster ν :=
  match s.store.lookup name with
  | some stored => if res.applied then { s with store := s.store.insert name (patch stored) } else s
  | none => s

def succeeds (s : Cluster ν) (name : NamespacedPolicyName) (res : PatchResult) : Bool :=
  decide (res = .ok) && (s.store.lookup name).isSome

/-- `processWorkloadPolicy` on the next policy, up to its status patch. -/
def process (s : Cluster ν) (sync : Sync ν) (wp : WorkloadPolicy) (order : Order String String)
    (now : Time) (res : PatchResult) : Cluster ν :=
  let name := wp.namespacedName
  match wp.recomputeStatus order (sync.nodes name) (sync.violations name) now with
  | .error _ => { s with stage := sync.next }
  | .ok (newPolicy, _) =>
    let done := s.applyPatch name res (Api.patchStatus wp newPolicy)
    { done with stage := if s.succeeds name res then .patched sync wp newPolicy else sync.next }

/-- A node's buffer after it was drained, and the sync with what it got. -/
def scrapeNode [DecidableEq ν] (s : Cluster ν) (sync : Sync ν) (node : ν) (res : ScrapeResult) :
    Cluster ν :=
  let (answer, b) := scrapeViolations (s.agents node)
  match res with
  | .delivered =>
    { s with
      agents := Function.update s.agents node b
      stage := .running
        { sync with violationsByPolicy := addScraped sync.violationsByPolicy answer } }
  | .lost => { s with agents := Function.update s.agents node b, stage := .running sync }
  | .unreached => { s with stage := .running sync }

def step [DecidableEq ν] : ClusterOp ν → Cluster ν → Cluster ν
  | .record node rec, s =>
    { s with
      agents := Function.update s.agents node ((s.agents node).record rec).2
      recorded := rec.policy :: s.recorded }
  | .create wp, s =>
    if (s.store.lookup wp.namespacedName).isSome then s
    else { s with store := s.store.insert wp.namespacedName { wp with status := {} } }
  | .edit name mode rulesByContainer generation annotations, s =>
    match s.store.lookup name with
    | some wp =>
      { s with
        store := s.store.insert name { wp with mode, rulesByContainer, generation, annotations } }
    | none => s
  | .delete name, s => { s with store := s.store.erase name }
  | .list order, s =>
    match s.stage with
    | .idle =>
      let items := (order.range 0 s.store).map Sigma.snd
      if items.isEmpty then s else { s with stage := .listed items }
    | _ => s
  | .pool reports clients, s =>
    match s.stage with
    | .listed items =>
      { s with
        stage := .running
          { items, clients, nodeStatusByPolicy := getNodeStatusByPolicy reports items } }
    | _ => s
  | .abort, s =>
    match s.stage with
    | .listed _ => { s with stage := .idle }
    | _ => s
  | .scrape res, s =>
    match s.stage with
    | .running sync =>
      match sync.clients with
      | node :: clients => s.scrapeNode { sync with clients } node res
      | [] => s
    | _ => s
  | .patchStatus order now res, s =>
    match s.stage with
    | .running sync =>
      match sync.clients, sync.items with
      | [], wp :: items => s.process { sync with items } wp order now res
      | _, _ => s
    | _ => s
  | .patchMetadata res, s =>
    match s.stage with
    | .patched sync wp newPolicy =>
      { s.applyPatch wp.namespacedName res (Api.patchMetadata wp newPolicy) with
        stage := sync.next }
    | _ => s

end Cluster

end RuntimeEnforcer.Api
