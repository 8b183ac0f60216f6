import RuntimeEnforcer.Resolver.NriApi

/-!
# The NRI plugin

`internal/nri/plugin.go`: the calls that the container runtime makes. When the plugin connects, the
runtime hands it all sandboxes and containers (`Synchronize`); from then on it asks before a
container is started and tells when one is removed.

`Handler.Start` runs the plugin in a retry loop around one resolver. A connection that is closed and
a pod that the resolver cannot add both end the run with an error that is tried again, without a
limit on the attempts. A cgroup that cannot be resolved during `Synchronize` is different: its error
is `retry.Unrecoverable`, and `Start` gives up with it. `Runtime.connect` stays disconnected then,
and a run of the handler has no operation after it but those of the policies, the starts and the
removals. Nothing here depends on that end: the runs in which the handler does connect again are
among those that the theorems cover.

`Runtime` is a container runtime with one agent. `Synchronize` takes the resolver's lock once per
pod, so policies may be reconciled and deleted between two pods; the runtime itself holds back
starts and removals until a synchronisation is over. While no plugin is connected it starts and
removes containers without asking.

`resolveCgroupID` is a field of the plugin: it answers the cgroup of a container, or fails. The
workload name and kind of `PodMeta` and the logs are left out.
-/

set_option autoImplicit false

namespace RuntimeEnforcer.Nri

open Lib

structure PodSandbox where
  id : String
  uid : PodID
  name : String
  ns : Namespace
  labels : GoMap String String

/-- `api.Container`, with the cgroup that was made for it and its path below the root of the
hierarchy. -/
structure Container where
  id : ContainerID
  podSandboxID : String
  name : ContainerName
  cgroupID : CgroupID
  cgroupPath : String

/-- What `AddPodContainerFromNri` stores of a container. -/
def Container.containerMeta (c : Container) : ContainerMeta := ⟨c.name, c.cgroupID⟩

/-- The containers whose cgroup cannot be resolved in a call, with the error. -/
abbrev Failing := ContainerID → Option String

def resolveCgroupID (failing : Failing) (c : Container) : Except String (CgroupID × String) :=
  match failing c.id with
  | some err => .error err
  | none => .ok (c.cgroupID, c.cgroupPath)

def podSandboxToPodMeta (pod : PodSandbox) : PodMeta where
  id := pod.uid
  ns := pod.ns
  name := pod.name
  labels := pod.labels

/-! ## Synchronize -/

abbrev Sandboxes := GoMap String (GoMap ContainerID ContainerInput)

def groupContainer (failing : Failing) (tmpSandboxes : Sandboxes) (c : Container) :
    Except String Sandboxes :=
  match resolveCgroupID failing c with
  | .error err => .error s!"failed to synchronize NRI plugin: {err}"
  | .ok (cgroupID, cgroupPath) =>
    let containers := (tmpSandboxes.lookup c.podSandboxID).getD ∅
    .ok (tmpSandboxes.insert c.podSandboxID
      (containers.insert c.id { name := c.name, cgroupID, cgroupPath }))

/-- What the second loop of `Synchronize` adds for one pod: nothing for a nil pod, nor for a sandbox
without containers. -/
def podData (tmpSandboxes : Sandboxes) (pod : Option PodSandbox) : Option PodInput :=
  pod.bind fun pod => (tmpSandboxes.lookup pod.id).map fun containers =>
    { podMeta := podSandboxToPodMeta pod, containers }

/-- `Synchronize`, up to the calls of the resolver: the pods it adds, in order. -/
def synchronize (failing : Failing) (pods : List (Option PodSandbox))
    (containers : List Container) : Except String (List PodInput) :=
  match containers.foldlM (groupContainer failing) ∅ with
  | .error err => .error err
  | .ok tmpSandboxes => .ok (pods.filterMap (podData tmpSandboxes))

/-! ## StartContainer and RemoveContainer -/

inductive Started
  | enforced
  | unenforced (reason : String)
  | prevented (reason : String)
  deriving DecidableEq, Repr

def Started.error (pod : PodSandbox) (c : Container) : Started → Option String
  | .prevented _ => some (s!"runtime-enforcer has prevented the container '{pod.name}/{c.name}' " ++
      "from starting. To change this behavior, set agent.nriFailopen=true in the helm chart")
  | _ => none

def handleError (failOpen : Bool) (reason : String) : Started :=
  if failOpen then .unenforced reason else .prevented reason

/-- The report of a container that is to start; it has no nested cgroups yet. -/
def startInput (pod : PodSandbox) (c : Container) : PodInput where
  podMeta := podSandboxToPodMeta pod
  containers := (∅ : GoMap _ _).insert c.id { name := c.name, cgroupID := c.cgroupID }

def startContainer (env : Env) (failOpen : Bool) (failing : Failing) (pod : PodSandbox)
    (c : Container) (r : Resolver) : Started × Resolver :=
  match resolveCgroupID failing c with
  | .error _ => (handleError failOpen "failed to get cgroup ID from container", r)
  | .ok _ =>
    match addPodContainerFromNri env (startInput pod c) r with
    | .ok _ r => (.enforced, r)
    | .error _ r => (handleError failOpen "failed to add pod container from NRI", r)

/-- `RemoveContainer`; an error is logged. -/
def removeContainer (env : Env) (pod : PodSandbox) (c : Container) (r : Resolver) : Resolver :=
  (Op.removePod pod.uid c.id).step env r

/-! ## The runtime and the agent -/

inductive Stage
  | disconnected
  | syncing (rest : List PodInput)
  | ready

structure Runtime where
  resolver : Resolver := {}
  stage : Stage := .disconnected
  synchronized : Bool := false
  running : List (PodSandbox × Container) := []
  unenforced : List (PodSandbox × Container) := []
  trace : List Op := []

inductive RuntimeOp
  | reconcile (wp : WorkloadPolicy)
  | delete (wp : ObjectMeta)
  | connect (failing : Failing) (pods : List (Option PodSandbox)) (containers : List Container)
  | syncPod
  | disconnect
  | start (failing : Failing) (pod : PodSandbox) (c : Container)
  | remove (pod : PodSandbox) (c : Container)

namespace Runtime

def ask (env : Env) (op : Op) (s : Runtime) : Runtime :=
  { s with resolver := op.step env s.resolver, trace := s.trace ++ [op] }

/-- The runtime connects and calls `Synchronize`. Its first loop resolves all cgroups before any pod
is added, so that a failure, which ends `Handler.Start`, leaves the resolver as it was. -/
def connect (failing : Failing) (pods : List (Option PodSandbox)) (containers : List Container)
    (s : Runtime) : Runtime :=
  match s.stage with
  | .disconnected =>
    match synchronize failing pods containers with
    | .error _ => s
    | .ok inputs => { s with stage := .syncing inputs }
  | _ => s

/-- The next pod of `Synchronize`, or its end. -/
def syncPod (env : Env) (s : Runtime) : Runtime :=
  match s.stage with
  | .syncing [] => { s with stage := .ready, synchronized := true, unenforced := [] }
  | .syncing (input :: rest) =>
    let asked := s.ask env (.addPod input)
    match addPodContainerFromNri env input s.resolver with
    | .ok _ _ => { asked with stage := .syncing rest }
    | .error _ _ => { asked with stage := .disconnected }
  | _ => s

/-- The resolver after `StartContainer`. -/
def askStart (env : Env) (failOpen : Bool) (failing : Failing) (pod : PodSandbox) (c : Container)
    (s : Runtime) : Runtime :=
  { s with
    resolver := (startContainer env failOpen failing pod c s.resolver).2
    trace := s.trace ++ if failing c.id = none then [.addPod (startInput pod c)] else [] }

/-- What the runtime does with the answer. -/
def goOn (answer : Started) (pod : PodSandbox) (c : Container) (s : Runtime) : Runtime :=
  match answer with
  | .enforced => { s with running := s.running ++ [(pod, c)] }
  | .unenforced _ => { s with
      running := s.running ++ [(pod, c)], unenforced := s.unenforced ++ [(pod, c)] }
  | .prevented _ => s

/-- A container is started, unless the plugin prevents it. -/
def start (env : Env) (failOpen : Bool) (failing : Failing) (pod : PodSandbox) (c : Container)
    (s : Runtime) : Runtime :=
  match s.stage with
  | .disconnected => { s with running := s.running ++ [(pod, c)] }
  | .syncing _ => s
  | .ready => (s.askStart env failOpen failing pod c).goOn
      (startContainer env failOpen failing pod c s.resolver).1 pod c

def remove (env : Env) (pod : PodSandbox) (c : Container) (s : Runtime) : Runtime :=
  let rest := s.running.filter fun x => ¬ (x.1.uid = pod.uid ∧ x.2.id = c.id)
  match s.stage with
  | .disconnected => { s with running := rest }
  | .syncing _ => s
  | .ready => { s.ask env (.removePod pod.uid c.id) with running := rest }

def step (env : Env) (failOpen : Bool) (op : RuntimeOp) (s : Runtime) : Runtime :=
  match op with
  | .reconcile wp => s.ask env (.reconcile wp)
  | .delete wp => s.ask env (.delete wp)
  | .connect failing pods containers => s.connect failing pods containers
  | .syncPod => s.syncPod env
  | .disconnect => { s with stage := .disconnected }
  | .start failing pod c => s.start env failOpen failing pod c
  | .remove pod c => s.remove env pod c

end Runtime

end RuntimeEnforcer.Nri
