import RuntimeEnforcer.Agent.NriPlugin
import RuntimeEnforcer.Lib.LevelTriggered

/-!
# The agent's policy handler

`internal/workloadpolicyhandler/workloadpolicy_handler.go`: the controller that hands the policies
of the cluster to the resolver, and the startup probe. `Get` and `List` read the manager's cache,
which follows the API server; `GenerationChangedPredicate` drops an update that leaves the
generation alone, and there is one worker. The resolver is also told about pods, by the NRI plugin.
-/

set_option autoImplicit false

namespace RuntimeEnforcer.Workloadpolicyhandler

open Lib LevelTriggered Nri

deriving instance DecidableEq for ObjectMeta

structure Spec where
  mode : Mode
  rulesByContainer : GoMap ContainerName WorkloadPolicyRules

def Spec.policy (spec : Spec) (key : ObjectMeta) : WorkloadPolicy :=
  { key with mode := spec.mode, rulesByContainer := spec.rulesByContainer }

/-- A `WorkloadPolicy` as the API server stores it under its name: its spec, and the generation that
counts the changes of the spec. -/
structure Stored where
  spec : Spec
  generation : Int

/-! ## Reconcile -/

inductive ReconcileErr
  | get (wp : NamespacedPolicyName) (err : String)
  | delete (wp : NamespacedPolicyName) (err : ResolverErr)
  | update (wp : NamespacedPolicyName) (err : ResolverErr)

def ReconcileErr.error : ReconcileErr → String
  | .get wp err => s!"failed to get WorkloadPolicy '{wp}': {err}"
  | .delete wp err => s!"failed to delete WorkloadPolicy '{wp}': " ++ err.error
  | .update wp err => s!"failed to update WorkloadPolicy '{wp}': " ++ err.error

/-- `Reconcile`, given what `Get` returns; `none` is an error that `IsNotFound`. -/
def reconcile (env : Env) (req : ObjectMeta) :
    Except String (Option Spec) → EStateM ReconcileErr Resolver Unit
  | .error err => throw (.get req.namespacedName err)
  | .ok none => (handleWPDelete env req).adaptExcept (.delete req.namespacedName)
  | .ok (some spec) =>
    (reconcileWP env (spec.policy req)).adaptExcept (.update req.namespacedName)

/-! ## The startup probe -/

inductive ProbeErr
  | list (err : String)
  | sync (err : SyncErr)

def ProbeErr.error : ProbeErr → String
  | .list err => s!"failed to list WorkloadPolicies during HasSynced check: {err}"
  | .sync err => err.error

/-- `HasSynced`, given what `List` returns: the result, and the flag it leaves. -/
def hasSynced (r : Resolver) (synced : Bool) (wps : Except String (List WorkloadPolicy)) :
    Except ProbeErr Unit × Bool :=
  if synced then (.ok (), true)
  else
    match wps with
    | .error err => (.error (.list err), false)
    | .ok items =>
      match RuntimeEnforcer.hasSynced r.getPolicyStatuses items with
      | .error err => (.error (.sync err), false)
      | .ok _ => (.ok (), true)

/-! ## The controller -/

/-- What the resolver is asked to do for what was read. -/
def request (req : ObjectMeta) : Option Spec → Op
  | some spec => .reconcile (spec.policy req)
  | none => .delete req

/-- `SetupWithManager`: the filter compares generations, and a request that fails is made again. -/
def controller (env : Env) : Controller ObjectMeta Stored Spec Runtime where
  view := Stored.spec
  drops old new := new.generation = old.generation
  reconcile req v s :=
    (isOk (reconcile env req (.ok v) s.resolver),
      { s with
        resolver := after (reconcile env req (.ok v) s.resolver)
        trace := s.trace ++ [request req v] })

/-- The policies of a cluster, and a node with its containers and its agent. -/
abbrev Cluster := Machine ObjectMeta Stored Spec Runtime

abbrev ClusterStep := Step ObjectMeta Stored RuntimeOp

def Cluster.step (env : Env) (failOpen : Bool) (s : ClusterStep) (m : Cluster) : Cluster :=
  Machine.step (controller env) (Runtime.step env failOpen) s m

def onPods : RuntimeOp → Bool
  | .reconcile _ | .delete _ => false
  | _ => true

end RuntimeEnforcer.Workloadpolicyhandler
