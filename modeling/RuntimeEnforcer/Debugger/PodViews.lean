import RuntimeEnforcer.Controller.AgentPool
import RuntimeEnforcer.Debugger.Validate
import RuntimeEnforcer.Resolver.ExportViews

/-!
# Where the compared caches come from

`ValidatePodCacheIntegrity` asks the agent of each node for its pod cache
(`internal/grpcexporter/agent_observer.go`) and makes the caches that it expects from the pods of
the cluster (`internal/debugger/cluster_pod_view.go`). A pod of the cluster has its containers in
the statuses, with the ids of the current containers and of those that were restarted; both go to
one map, in which a later one replaces an earlier one of the same id.
-/

set_option autoImplicit false

namespace RuntimeEnforcer.Debugger

open Lib
open Grpcexporter (AgentPod AgentClientPool Conn)
open Grpcexporter.AgentClientPool (Reply)

/-! ## The agents -/

def podViewToProto (podView : PodView) : AgentPodView where
  id := podView.podMeta.id
  name := podView.podMeta.name
  ns := podView.podMeta.ns.val
  containers := podView.containers.map ContainerMeta.name

def listPodCache (order : Order PodID PodView) (r : Resolver) : List AgentPodView :=
  (order.range 0 r.podCacheSnapshot).map fun e => podViewToProto e.2

/-- One round of the loop over the clients: only an answer is kept. -/
def addAgentCache (agentCaches : GoMap String (List AgentPodView))
    (reply : String × Reply (List AgentPodView)) : GoMap String (List AgentPodView) :=
  match reply.2 with
  | .noClient => agentCaches
  | .failed => agentCaches
  | .answer podCacheList => agentCaches.insert reply.1 podCacheList

/-! ## The cluster -/

structure ContainerStatus where
  containerID : String
  name : String
  terminated : Bool
  lastTerminated : Option String

inductive PodPhase
  | pending
  | running
  | succeeded
  | failed
  | unknown
  | other
  deriving DecidableEq, Repr

/-- What is read of a `corev1.Pod`. Of a container's status these are the id and the name, whether
`State.Terminated` is set, and the container id of `LastTerminationState.Terminated`, where that is
set. -/
structure Pod where
  uid : String
  name : String
  ns : String
  annotations : GoMap String String
  nodeName : String
  phase : PodPhase
  initContainerStatuses : List ContainerStatus
  containerStatuses : List ContainerStatus
  ephemeralContainerStatuses : List ContainerStatus

def staticPodAnnotation : String := "kubernetes.io/config.mirror"

/-- What follows the first `://`, if there is one. -/
def afterScheme : List Char → Option (List Char)
  | [] => none
  | ':' :: '/' :: '/' :: rest => some rest
  | _ :: rest => afterScheme rest

def extractContainerID (containerIDRuntimeFormat : String) : String :=
  match afterScheme containerIDRuntimeFormat.toList with
  | none => containerIDRuntimeFormat
  | some rest => String.ofList rest

example : extractContainerID "containerd://d4813c" = "d4813c" ∧ extractContainerID "d4" = "d4" := by
  decide +kernel

/-- `addContainerToPodView`. The container of the last state is stored after the current one, so
that it replaces a current one of the same id. -/
def addContainerToPodView (podView : ClusterPodView) (containerStatus : ContainerStatus) :
    ClusterPodView :=
  let cID := extractContainerID containerStatus.containerID
  let containers :=
    podView.containers.insert cID ⟨cID, containerStatus.name, containerStatus.terminated⟩
  match containerStatus.lastTerminated with
  | none => { podView with containers }
  | some id =>
    let terminatedCID := extractContainerID id
    { podView with
      containers := containers.insert terminatedCID ⟨terminatedCID, containerStatus.name, true⟩ }

/-- The id of a pod: of a static pod the one in the annotation. -/
def Pod.podUID (pod : Pod) : String :=
  let mirror := (pod.annotations.lookup staticPodAnnotation).getD ""
  if mirror ≠ "" then mirror else pod.uid

def newClusterPodView (pod : Pod) : ClusterPodView :=
  let podView : ClusterPodView :=
    { id := pod.podUID, name := pod.name, ns := pod.ns, containers := ∅ }
  let podView := pod.initContainerStatuses.foldl addContainerToPodView podView
  let podView := pod.containerStatuses.foldl addContainerToPodView podView
  pod.ephemeralContainerStatuses.foldl addContainerToPodView podView

def PodPhase.expected : PodPhase → Bool
  | .running | .succeeded | .failed => true
  | .pending | .unknown | .other => false

/-- One round of the loop over the pods of the cluster. -/
def addClusterPod (clusterCaches : GoMap String (List ClusterPodView)) (pod : Pod) :
    GoMap String (List ClusterPodView) :=
  if pod.phase.expected then
    clusterCaches.insert pod.nodeName
      ((clusterCaches.lookup pod.nodeName).getD [] ++ [newClusterPodView pod])
  else clusterCaches

/-! ## The validation -/

/-- What the validation finds: a listing may fail, and `agents` has the resolver of an agent whose
`ListPodCache` succeeds. The rest are the orders of the loops over maps. -/
structure IntegrityInput where
  agentPods : Except String (List AgentPod)
  agents : String → Option Resolver
  pods : Except String (List Pod)
  staleOrder : Order String (Option Conn)
  clientOrder : Order String (Option Conn)
  snapshotOrder : String → Order PodID PodView
  containerOrders : String → Orders
  clusterOrder : Order String (List ClusterPodView)
  agentOrder : Order String (List AgentPodView)

def IntegrityInput.listPodCache (i : IntegrityInput) (nodeName : String) :
    Option (List AgentPodView) :=
  (i.agents nodeName).map (Debugger.listPodCache (i.snapshotOrder nodeName))

/-- `ValidatePodCacheIntegrity`, with what is printed of the nodes. -/
def validatePodCacheIntegrity (i : IntegrityInput) (pool : AgentClientPool) :
    AgentClientPool × Except String (List NodeReport) :=
  match i.agentPods with
  | .error err => (pool, .error s!"failed to update agent client pool: {err}")
  | .ok agentPods =>
    let asked := (pool.updatePool i.staleOrder agentPods).askAll i.clientOrder i.listPodCache
    let agentCaches := asked.2.foldl addAgentCache ∅
    match i.pods with
    | .error err => (asked.1, .error s!"failed to list pods in the cluster: {err}")
    | .ok pods =>
      let clusterCaches := pods.foldl addClusterPod ∅
      (asked.1, .ok (validateCaches i.containerOrders i.clusterOrder i.agentOrder agentCaches
        clusterCaches))

end RuntimeEnforcer.Debugger
