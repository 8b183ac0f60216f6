import RuntimeEnforcer.Resolver.NriApi

/-!
# What the resolver tells

`internal/resolver/export_views.go`: the pod and the container of a cgroup, through the index, and a
copy of the cache.
-/

set_option autoImplicit false

namespace RuntimeEnforcer

open Lib

structure ContainerView where
  podMeta : PodMeta
  containerID : ContainerID
  container : ContainerMeta

inductive ViewErr
  | noPodID (cg : CgroupID)
  | noPod (podID : PodID) (cg : CgroupID)
  | noContainer (cg : CgroupID) (podID : PodID)

def ViewErr.error : ViewErr → String
  | .noPodID cg => s!"no pod UID associated with cgroup ID: {cg}"
  | .noPod podID cg => s!"no pod entry associated with pod ID: {podID} (cgroup ID {cg})"
  | .noContainer cg podID =>
    s!"no container associated with cgroup ID: {cg} in pod ID: {podID}"

def getContainerView (env : Env) (cg : CgroupID) (r : Resolver) : Except ViewErr ContainerView :=
  match r.cgroupIDToPodID.lookup cg with
  | none => .error (.noPodID cg)
  | some podID =>
    match r.podCache.lookup podID with
    | none => .error (.noPod podID cg)
    | some pod =>
      match (env.containers.range r.world.clock pod.containers).find? fun e =>
          cg = e.2.cgroupID with
      | none => .error (.noContainer cg podID)
      | some e => .ok ⟨pod.podMeta, e.1, ⟨e.2.name, cg⟩⟩

structure PodView where
  podMeta : PodMeta
  containers : GoMap ContainerID ContainerMeta

/-- `toView`. Both maps are copied. -/
def PodEntry.toView (pod : PodEntry) : PodView where
  podMeta := pod.podMeta
  containers := pod.containers

def Resolver.podCacheSnapshot (r : Resolver) : GoMap PodID PodView :=
  r.podCache.map PodEntry.toView

end RuntimeEnforcer
