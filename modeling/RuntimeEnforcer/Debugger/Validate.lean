import Mathlib.Data.List.Sort
import Mathlib.Data.String.Basic
import RuntimeEnforcer.Lib.GoMap

/-!
# Comparing the agents' pod caches with the cluster

`internal/debugger/validate.go`: for each node the pods that the cluster has and the pods that the
node's agent has cached are sorted by their id and run through side by side. What differs is
reported in lines of text. The containers of a pod are visited in the order of Go's maps.
-/

set_option autoImplicit false

namespace RuntimeEnforcer.Debugger

open Lib

structure ClusterContainerMeta where
  id : String
  name : String
  terminated : Bool

structure ClusterPodView where
  id : String
  name : String
  ns : String
  containers : GoMap String ClusterContainerMeta

/-- `agentPodView`, of an `agentv1.PodView`; a nil field reads as the empty string, and a container
is stored by its name alone. -/
structure AgentPodView where
  id : String
  name : String
  ns : String
  containers : GoMap String String

def ClusterPodView.sortKey (v : ClusterPodView) : String := v.id

def ClusterPodView.string (v : ClusterPodView) : String := s!"{v.ns}/{v.name} ({v.id})"

def AgentPodView.sortKey (v : AgentPodView) : String := v.id

def AgentPodView.string (v : AgentPodView) : String := s!"{v.ns}/{v.name} ({v.id})"

def missingPodFromAgentCache (clusterPod : ClusterPodView) : String :=
  s!"pod {clusterPod.string} is missing from the agent cache"

def unexpectedPodInAgentCache (agentPod : AgentPodView) : String :=
  s!"unexpected pod {agentPod.string} found in the agent cache"

def fieldMismatch (fieldName clusterValue agentValue : String) : String :=
  s!"{fieldName.quote} mismatch: cluster={clusterValue.quote}, agent={agentValue.quote}"

def containerNameMismatch (containerID clusterValue agentValue : String) : String :=
  s!"container {containerID.quote}: " ++ fieldMismatch "name" clusterValue agentValue

/-- The orders in which the two maps of containers are visited. -/
structure Orders where
  cluster : Order String ClusterContainerMeta
  agent : Order String String

def compareClusterContainer (cachePod : AgentPodView) (containerID : String)
    (clusterContainer : ClusterContainerMeta) : List String :=
  match cachePod.containers.lookup containerID with
  | none =>
    if clusterContainer.terminated then []
    else [s!"missing container {clusterContainer.name.quote} ({containerID.quote}) " ++
      "in the agent cache"]
  | some cacheName =>
    if clusterContainer.name ≠ cacheName then
      [containerNameMismatch containerID clusterContainer.name cacheName]
    else []

def compareAgentContainer (clusterPod : ClusterPodView) (containerID cacheName : String) :
    List String :=
  if (clusterPod.containers.lookup containerID).isSome then []
  else [s!"container {cacheName.quote} ({containerID.quote}) is only in the agent cache"]

def comparePods (o : Orders) (moment : Nat) (clusterPod : ClusterPodView)
    (cachePod : AgentPodView) : List String :=
  let differences :=
    (if clusterPod.ns ≠ cachePod.ns then [fieldMismatch "namespace" clusterPod.ns cachePod.ns]
      else []) ++
    (if clusterPod.name ≠ cachePod.name then [fieldMismatch "name" clusterPod.name cachePod.name]
      else []) ++
    ((o.cluster.range moment clusterPod.containers).flatMap fun e =>
      compareClusterContainer cachePod e.1 e.2) ++
    ((o.agent.range moment cachePod.containers).flatMap fun e =>
      compareAgentContainer clusterPod e.1 e.2)
  differences.map fun diff => s!"{clusterPod.string}: " ++ diff

structure Comparing where
  clusterIdx : Nat := 0
  agentIdx : Nat := 0
  differences : List String := []

/-- One round of the first loop of `compareCaches`. The pods come in the order of their ids in both
lists, so the round reports the smaller one as missing from the other list, or compares two pods of
one id container by container. -/
def Comparing.compare (o : Orders) (st : Comparing) (clusterPod : ClusterPodView)
    (cachePod : AgentPodView) : Comparing :=
  if clusterPod.sortKey < cachePod.sortKey then
    { st with
      differences := st.differences ++ [missingPodFromAgentCache clusterPod]
      clusterIdx := st.clusterIdx + 1 }
  else if cachePod.sortKey < clusterPod.sortKey then
    { st with
      differences := st.differences ++ [unexpectedPodInAgentCache cachePod]
      agentIdx := st.agentIdx + 1 }
  else
    { differences := st.differences ++ comparePods o st.clusterIdx clusterPod cachePod
      clusterIdx := st.clusterIdx + 1
      agentIdx := st.agentIdx + 1 }

/-- The first loop of `compareCaches`, which ends where one of the lists does. -/
def compareLoop (o : Orders) (clusterCache : List ClusterPodView) (agentCache : List AgentPodView) :
    Nat → Comparing → Comparing
  | 0, st => st
  | fuel + 1, st =>
    match clusterCache[st.clusterIdx]?, agentCache[st.agentIdx]? with
    | some clusterPod, some cachePod =>
      compareLoop o clusterCache agentCache fuel (st.compare o clusterPod cachePod)
    | _, _ => st

/-- `compareCaches`. A round of the first loop takes a pod from one of the lists at least. -/
def compareCaches (o : Orders) (clusterCache : List ClusterPodView)
    (agentCache : List AgentPodView) : List String :=
  let st := compareLoop o clusterCache agentCache (clusterCache.length + agentCache.length) {}
  st.differences ++ (clusterCache.drop st.clusterIdx).map missingPodFromAgentCache ++
    (agentCache.drop st.agentIdx).map unexpectedPodInAgentCache

/-- `sort.Slice` by a key. -/
def sortSlice {α : Type} (key : α → String) (l : List α) : List α :=
  l.insertionSort fun a b => key a ≤ key b

inductive NodeMsg
  | noAgentCache
  | foundNodeDifferences
  | unexpectedAgentCache
  deriving DecidableEq, Repr

def NodeMsg.string : NodeMsg → String
  | .noAgentCache => "no agent cache available"
  | .foundNodeDifferences => "found differences"
  | .unexpectedAgentCache => "unexpected agent cache"

/-- What is printed of a node. -/
structure NodeReport where
  nodeName : String
  msg : NodeMsg
  differences : List String := []

def nodeMessage (r : NodeReport) : String := s!"\n=== Node {r.nodeName.quote}: {r.msg.string}\n"

/-- One round of the loop of `validateCaches` over the nodes of the cluster. -/
def validateNode (o : Orders) (agentCaches : GoMap String (List AgentPodView)) (nodeName : String)
    (clusterCache : List ClusterPodView) : Option NodeReport :=
  match agentCaches.lookup nodeName with
  | none => some { nodeName, msg := .noAgentCache }
  | some agentCache =>
    let differences := compareCaches o (sortSlice ClusterPodView.sortKey clusterCache)
      (sortSlice AgentPodView.sortKey agentCache)
    if differences.length > 0 then some { nodeName, msg := .foundNodeDifferences, differences }
    else none

/-- `validateCaches`; the containers of each node are visited in orders of their own. -/
def validateCaches (o : String → Orders) (clusterOrder : Order String (List ClusterPodView))
    (agentOrder : Order String (List AgentPodView))
    (agentCaches : GoMap String (List AgentPodView))
    (clusterCaches : GoMap String (List ClusterPodView)) : List NodeReport :=
  ((clusterOrder.range 0 clusterCaches).filterMap fun e =>
    validateNode (o e.1) agentCaches e.1 e.2) ++
  ((agentOrder.range 0 agentCaches).filterMap fun e =>
    if (clusterCaches.lookup e.1).isSome then none
    else some { nodeName := e.1, msg := .unexpectedAgentCache })

end RuntimeEnforcer.Debugger
