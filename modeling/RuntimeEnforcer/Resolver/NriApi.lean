import RuntimeEnforcer.Resolver.Policy

/-!
# Pods

`internal/resolver/nri_api.go`: what the container runtime reports through NRI. A report carries
some of a pod's containers; a pod that is cached already is extended in place, container by
container, while a new one is put in the cache only after its last container.
-/

set_option autoImplicit false

namespace RuntimeEnforcer

open Lib

/-- Put a container in the pod's entry and in the cgroup index. The entry of a cached pod is the
cache's own. -/
def storeContainer (pod : PodInput) (cached : Bool) (state : PodEntry) (containerID : ContainerID)
    (cg : CgroupID) (r : Resolver) : Resolver :=
  { r with
    podCache := if cached then r.podCache.insert pod.podMeta.id state else r.podCache
    cgroupIDToPodID := r.cgroupIDToPodID.insert cg pod.podMeta.id
    events := .added pod.podMeta.id containerID :: r.events }

def trackContainer (env : Env) (pod : PodInput) (container : ContainerInput) : ResolverM Unit := do
  Resolver.onMaps (call (.tracker pod.podMeta.name container.name)
    (cgroupTrackerUpdate env.toManagerEnv container.cgroupID container.cgroupPath))
  modify fun r => { r with events := .tracked container.cgroupID :: r.events }

/-- One container of `AddPodContainerFromNri`. -/
def addContainer (env : Env) (pod : PodInput) (cached : Bool) (state : PodEntry)
    (e : Entry ContainerID ContainerInput) : ResolverM PodEntry :=
  match state.containers.lookup e.1 with
  | some info =>
    if info.cgroupID = e.2.cgroupID ∧ info.name = e.2.name then pure state
    else throw (.containerExists e.1 pod.podMeta.name info e.2.toContainerMeta)
  | none => do
    let state := { state with containers := state.containers.insert e.1 e.2.toContainerMeta }
    modify (storeContainer pod cached state e.1 e.2.cgroupID)
    trackContainer env pod e.2
    pure state

def addPodContainerFromNri (env : Env) (pod : PodInput) : ResolverM Unit := do
  let r ← get
  let known := r.podCache.lookup pod.podMeta.id
  let state ← (env.inputs.range r.world.clock pod.containers).foldlM
    (addContainer env pod known.isSome) (known.getD (convertPodData pod))
  modify fun r => { r with podCache := r.podCache.insert pod.podMeta.id state }
  let r ← get
  zoom Resolver.world Resolver.setWorld ResolverErr.applyToPod
    (applyPolicyToPodIfPresent env r.wpState state)

def removePodContainerFromNri (env : Env) (podID : PodID) (containerID : ContainerID) :
    ResolverM Unit := do
  let r ← get
  match r.podCache.lookup podID with
  | none => pure ()
  | some state =>
    match state.containers.lookup containerID with
    | none => pure ()
    | some container =>
      set { r with
        podCache :=
          if state.containers.entries.length = 1 then r.podCache.erase podID
          else r.podCache.insert podID
            { state with containers := state.containers.erase containerID }
        cgroupIDToPodID := r.cgroupIDToPodID.erase container.cgroupID }
      Resolver.onMaps (call .removeContainer
        (cgroupPolicyUpdate env.toManagerEnv 0 [container.cgroupID] .removeCgroups))

/-! ## Runs -/

/-- What the resolver is asked to do. -/
inductive Op
  | reconcile (wp : WorkloadPolicy)
  | delete (wp : ObjectMeta)
  | addPod (pod : PodInput)
  | removePod (podID : PodID) (containerID : ContainerID)

def Op.exec (env : Env) : Op → ResolverM Unit
  | .reconcile wp => reconcileWP env wp
  | .delete wp => handleWPDelete env wp
  | .addPod pod => addPodContainerFromNri env pod
  | .removePod podID containerID => removePodContainerFromNri env podID containerID

/-- The state an operation leaves behind, whether it returned an error or not. -/
def Op.step (env : Env) (op : Op) (r : Resolver) : Resolver := after (op.exec env r)

/-- Every call of a BPF update function succeeds. -/
def Op.Succeeds (env : Env) (r : Resolver) (op : Op) : Prop :=
  Ends (op.exec env r) (fun _ _ => True) (fun e _ => e.isBpf = false)

instance (env : Env) (r : Resolver) (op : Op) : Decidable (op.Succeeds env r) :=
  match h : op.exec env r with
  | .ok _ _ => .isTrue (by unfold Op.Succeeds; rw [h]; trivial)
  | .error e _ => decidable_of_iff (e.isBpf = false) (by unfold Op.Succeeds; rw [h]; exact Iff.rfl)

/-- The specs the resolver has been told and not told to forget, after an operation. -/
def Op.specs (op : Op) (specs : NamespacedPolicyName → Option WorkloadPolicy) :
    NamespacedPolicyName → Option WorkloadPolicy :=
  match op with
  | .reconcile wp => Function.update specs wp.namespacedName (some wp)
  | .delete o => Function.update specs o.namespacedName none
  | _ => specs

/-- A resolver, and the specs of the last reconcile of each policy that is not deleted. -/
structure Node where
  resolver : Resolver := {}
  specs : NamespacedPolicyName → Option WorkloadPolicy := fun _ => none

def Node.step (env : Env) (op : Op) (n : Node) : Node where
  resolver := op.step env n.resolver
  specs := op.specs n.specs

/-! ## What is reported -/

/-- A container as it is reported. -/
structure Report where
  podID : PodID
  containerID : ContainerID
  name : ContainerName
  cgroupID : CgroupID
  deriving DecidableEq, Repr

/-- The containers an operation reports. -/
def Op.reports : Op → List Report
  | .addPod pod => pod.containers.entries.map fun e => ⟨pod.podMeta.id, e.1, e.2.name, e.2.cgroupID⟩
  | _ => []

/-- Container ids are always reported with the same pod, name and cgroup, and distinct containers
have distinct cgroups. -/
def Inventory (reports : List Report) : Prop :=
  ∀ a ∈ reports, ∀ b ∈ reports,
    (a.containerID = b.containerID → a = b) ∧ (a.cgroupID = b.cgroupID → a = b)

instance (reports : List Report) : Decidable (Inventory reports) := by
  unfold Inventory; infer_instance

def Resolver.Cached (r : Resolver) (podID : PodID) (pod : PodMeta) (cid : ContainerID)
    (c : ContainerMeta) : Prop :=
  ∃ entry, r.podCache.lookup podID = some entry ∧ entry.podMeta = pod ∧
    entry.containers.lookup cid = some c

/-- What the cache shows of a container, and the policy its pod names. -/
def Resolver.shows (r : Resolver) (podID : PodID) (cid : ContainerID) :
    Option (NamespacedPolicyName × ContainerMeta) := do
  let entry ← r.podCache.lookup podID
  let c ← entry.containers.lookup cid
  pure (entry.podMeta.policyKey, c)

theorem Resolver.cached_of_shows {r : Resolver} {podID : PodID} {cid : ContainerID}
    {key : NamespacedPolicyName} {c : ContainerMeta} (h : r.shows podID cid = some (key, c)) :
    ∃ pm, r.Cached podID pm cid c ∧ pm.policyKey = key := by
  obtain ⟨entry, he, h⟩ := Option.bind_eq_some_iff.mp h
  obtain ⟨c', hc, h⟩ := Option.bind_eq_some_iff.mp h
  obtain ⟨rfl, rfl⟩ := Prod.mk.inj (Option.some.inj h)
  exact ⟨entry.podMeta, ⟨entry, he, rfl, hc⟩, rfl⟩

def Resolver.pol (r : Resolver) (key : NamespacedPolicyName) (n : ContainerName) :
    Option PolicyID :=
  (r.wpState.lookup key).bind fun info => info.polByContainer.lookup n

def Resolver.bound (r : Resolver) (cg : CgroupID) : Option PolicyID :=
  r.world.maps.cgToPolicy.lookup cg

/-! ## A policy and its pods -/

/-- The system calls whose number satisfies `fails` fail, and no other. -/
def Env.failsWhen (fails : Nat → Prop) [DecidablePred fails] : Env :=
  { Env.calm with fault := fun n => if fails n then some "input/output error" else none }

/-- Only the `t`-th system call fails. -/
def Env.failsAt (t : Nat) : Env := Env.failsWhen (· = t)

namespace Sample

def webApp (mode : Mode) (allowed : List Bytes) : WorkloadPolicy :=
  { web with mode, rulesByContainer := (∅ : GoMap _ _).insert "app" { allowed } }

def webNone : WorkloadPolicy := { web with mode := .protect, rulesByContainer := ∅ }

def pod (id : PodID) (cid : ContainerID) (cg : CgroupID) : PodInput where
  podMeta := ⟨id, ns, id, (∅ : GoMap _ _).insert policyLabelKey "web"⟩
  containers := (∅ : GoMap _ _).insert cid { name := "app", cgroupID := cg }

end Sample

end RuntimeEnforcer
