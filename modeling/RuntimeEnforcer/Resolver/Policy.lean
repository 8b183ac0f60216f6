import RuntimeEnforcer.Resolver.Types

/-!
# Policies

`internal/resolver/policy.go`. An operation on a policy works on the policy's own map from
container names to policy ids, on the id allocator and on the BPF maps (`PolicyScope`), and reads
the pod cache; the rest of the resolver it cannot touch. Each operation stops at the first error,
and keeps what it has done by then.
-/

set_option autoImplicit false

namespace RuntimeEnforcer

open Lib

/-- Computations on the BPF maps alone. -/
abbrev MapsM := EStateM ResolverErr World

/-- Call an update function, and wrap its error. -/
def call (err : BpfErr → ResolverErr) (x : BpfM Unit) : MapsM Unit :=
  zoom (fun w => w) (fun w _ => w) err x

/-- What the operations on one policy work on. -/
structure PolicyScope where
  polByContainer : PolicyByContainer
  nextPolicyID : PolicyID
  world : World

abbrev PolicyM := EStateM ResolverErr PolicyScope

def PolicyScope.setWorld (w : World) (s : PolicyScope) : PolicyScope := { s with world := w }

def onMaps (x : MapsM Unit) : PolicyM Unit :=
  zoom PolicyScope.world PolicyScope.setWorld (fun e => e) x

/-- The increment is that of a counter that has not overflowed, see `nextPolicyID_lt`. -/
def allocPolicyID : PolicyM PolicyID := fun s =>
  .ok s.nextPolicyID { s with nextPolicyID := s.nextPolicyID + 1 }

def upsertPolicyIDInBPF (env : ManagerEnv) (id : PolicyID) (allowedBinaries : List Bytes)
    (mode : Mode) (allowForeignRoot : Bool) (valuesOp : PolicyValuesOperation) : BpfM Unit := do
  policyUpdateBinaries env id allowedBinaries valuesOp
  policySettingsUpdate env id mode allowForeignRoot .updateSettings

def clearPolicyIDFromBPF (env : ManagerEnv) (id : PolicyID) : BpfM Unit := do
  policyUpdateBinaries env id [] .removeValuesFromPolicy
  -- the mode is not read; the source passes a zero
  policySettingsUpdate env id .monitor false .deleteSettings

/-! ## One pod -/

/-- One container of `applyPolicyToPod`. -/
def applyToContainer (env : Env) (state : PodEntry) (applied : PolicyByContainer)
    (container : ContainerMeta) : MapsM Unit :=
  match applied.lookup container.name with
  | none => pure ()
  | some polID =>
    call (.addCgroups state.podName container.name state.policyName)
      (cgroupPolicyUpdate env.toManagerEnv polID [container.cgroupID] .addPolicyToCgroups)

def applyPolicyToPod (env : Env) (state : PodEntry) (applied : PolicyByContainer) :
    MapsM Unit := do
  let w ← get
  (env.containers.range w.clock state.containers).forM fun e =>
    applyToContainer env state applied e.2

/-- One container of `removePolicyFromPod`. -/
def removeFromContainer (env : Env) (wpKey : NamespacedPolicyName) (pod : PodEntry)
    (removed : PolicyByContainer) (container : ContainerMeta) : PolicyM Unit :=
  match removed.lookup container.name with
  | none => pure ()
  | some policyID => do
    onMaps (call (.removeCgroups pod.podName container.name pod.policyName)
      (cgroupPolicyUpdate env.toManagerEnv 0 [container.cgroupID] .removeCgroups))
    onMaps (call (.clear wpKey container.name) (clearPolicyIDFromBPF env.toManagerEnv policyID))
    modify fun s => { s with polByContainer := s.polByContainer.erase container.name }

def removePolicyFromPod (env : Env) (wpKey : NamespacedPolicyName) (pod : PodEntry)
    (removed : PolicyByContainer) : PolicyM Unit := do
  let s ← get
  (env.containers.range s.world.clock pod.containers).forM fun e =>
    removeFromContainer env wpKey pod removed e.2

/-- `applyPolicyToPodIfPresent`. -/
def applyPolicyToPodIfPresent (env : Env) (wpState : GoMap NamespacedPolicyName WpInfo)
    (state : PodEntry) : MapsM Unit :=
  if state.policyName = "" then pure ()
  else
    match wpState.lookup state.podMeta.policyKey with
    | none => throw (.noPolicy state.podNamespace.val state.podName state.policyName)
    | some info => applyPolicyToPod env state info.polByContainer

/-! ## One policy -/

/-- Write the rules of one container under its policy id. -/
def populate (env : Env) (wp : WorkloadPolicy) (containerName : ContainerName)
    (containerRules : WorkloadPolicyRules) (polID : PolicyID) (op : PolicyValuesOperation) :
    PolicyM Unit :=
  onMaps (call (.populate wp.namespacedName containerName)
    (upsertPolicyIDInBPF env.toManagerEnv polID containerRules.allowed wp.mode
      containerRules.allowForeignRootExec op))

/-- One container of `syncWorkloadPolicy`. -/
def syncContainer (env : Env) (wp : WorkloadPolicy) (newContainers : PolicyByContainer)
    (e : Entry ContainerName WorkloadPolicyRules) : PolicyM PolicyByContainer := do
  let s ← get
  match s.polByContainer.lookup e.1 with
  | some polID =>
    populate env wp e.1 e.2 polID .replaceValuesInPolicy
    pure newContainers
  | none =>
    let polID ← allocPolicyID
    populate env wp e.1 e.2 polID .addValuesToPolicy
    pure (newContainers.insert e.1 polID)

def syncWorkloadPolicy (env : Env) (wp : WorkloadPolicy) : PolicyM PolicyByContainer := do
  let s ← get
  (env.rules.range s.world.clock wp.rulesByContainer).foldlM (syncContainer env wp) ∅

/-- Whether the spec has rules for a container. -/
def WorkloadPolicy.names (wp : WorkloadPolicy) (n : ContainerName) : Bool :=
  (wp.rulesByContainer.lookup n).isSome

/-- One pod of the loop of `ReconcileWP`. -/
def reconcilePod (env : Env) (wp : WorkloadPolicy) (applied removed : PolicyByContainer)
    (pod : PodEntry) : PolicyM Unit :=
  if pod.matchPolicy wp.name wp.ns then do
    removePolicyFromPod env wp.namespacedName pod removed
    onMaps (applyPolicyToPod env pod applied)
  else pure ()

def reconcilePods (env : Env) (wp : WorkloadPolicy) (podCache : GoMap PodID PodEntry)
    (applied removed : PolicyByContainer) : PolicyM Unit := do
  let s ← get
  (env.pods.range s.world.clock podCache).forM fun e => reconcilePod env wp applied removed e.2

/-- `ReconcileWP`, on the policy's own entry. -/
def reconcileContainers (env : Env) (wp : WorkloadPolicy) (podCache : GoMap PodID PodEntry) :
    PolicyM Unit := do
  let newContainers ← syncWorkloadPolicy env wp
  modify fun s => { s with polByContainer := newContainers ∪ s.polByContainer }
  let s ← get
  reconcilePods env wp podCache (s.polByContainer.filter wp.names)
    (s.polByContainer.filter fun n => !wp.names n)

/-! ## The resolver's operations -/

/-- The entry of a policy; one that does not exist yet is created. -/
def Resolver.infoOf (r : Resolver) (key : NamespacedPolicyName) : WpInfo :=
  (r.wpState.lookup key).getD {}

def Resolver.scope (r : Resolver) (key : NamespacedPolicyName) : PolicyScope where
  polByContainer := (r.infoOf key).polByContainer
  nextPolicyID := r.nextPolicyID
  world := r.world

/-- Write a policy's entry back, with the status the reconcile ends with. -/
def Resolver.commit (r : Resolver) (key : NamespacedPolicyName) (s : PolicyScope)
    (status : PolicyStatus) : Resolver :=
  { r with
    nextPolicyID := s.nextPolicyID
    wpState := r.wpState.insert key { polByContainer := s.polByContainer, status }
    world := s.world }

/-- `ReconcileWP`. The deferred function reports the error in the policy's status. -/
def reconcileWP (env : Env) (wp : WorkloadPolicy) : ResolverM Unit := fun r =>
  let key := wp.namespacedName
  match reconcileContainers env wp r.podCache (r.scope key) with
  | .ok _ s => .ok () (r.commit key s { state := .ready, mode := wp.mode.toProto })
  | .error e s =>
    .error e (r.commit key s { state := .error, mode := wp.mode.toProto, message := e.error })

def Resolver.setWorld (w : World) (r : Resolver) : Resolver := { r with world := w }

def Resolver.onMaps (x : MapsM Unit) : ResolverM Unit :=
  zoom Resolver.world Resolver.setWorld (fun e => e) x

/-- One container of `HandleWPDelete`. -/
def deleteContainer (env : Env) (wpKey : NamespacedPolicyName)
    (e : Entry ContainerName PolicyID) : MapsM Unit := do
  call .removePolicy (cgroupPolicyUpdate env.toManagerEnv e.2 [] .removePolicy)
  call (.clear wpKey e.1) (clearPolicyIDFromBPF env.toManagerEnv e.2)

def deleteContainers (env : Env) (wpKey : NamespacedPolicyName) (pol : PolicyByContainer) :
    MapsM Unit := do
  let w ← get
  (env.policies.range w.clock pol).forM (deleteContainer env wpKey)

/-- `HandleWPDelete`. The entry is dropped before the maps are cleared. -/
def handleWPDelete (env : Env) (wp : ObjectMeta) : ResolverM Unit := do
  let r ← get
  match r.wpState.lookup wp.namespacedName with
  | none => pure ()
  | some info =>
    set { r with wpState := r.wpState.erase wp.namespacedName }
    Resolver.onMaps (deleteContainers env wp.namespacedName info.polByContainer)

def Resolver.getPolicyStatuses (r : Resolver) : GoMap NamespacedPolicyName PolicyStatus :=
  r.wpState.map WpInfo.status

/-! ## The readiness probe -/

inductive SyncErr
  | notFound (wp : NamespacedPolicyName)
  | notReady (wp : NamespacedPolicyName)

def SyncErr.error : SyncErr → String
  | .notFound wp => s!"policy status not found for WorkloadPolicy '{wp}'"
  | .notReady wp => s!"policy status is not ready for WorkloadPolicy '{wp}'"

/-- The loop of `HasSynced` in `internal/workloadpolicyhandler`, over the policies listed. -/
def hasSynced (statuses : GoMap NamespacedPolicyName PolicyStatus) :
    List WorkloadPolicy → Except SyncErr Unit
  | [] => .ok ()
  | wp :: wps =>
    match statuses.lookup wp.namespacedName with
    | none => .error (.notFound wp.namespacedName)
    | some status =>
      if status.state ≠ .ready then .error (.notReady wp.namespacedName)
      else if status.mode ≠ wp.mode.toProto then .error (.notReady wp.namespacedName)
      else hasSynced statuses wps

end RuntimeEnforcer
