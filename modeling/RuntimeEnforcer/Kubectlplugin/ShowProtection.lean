import RuntimeEnforcer.Agent.PodWorkload
import RuntimeEnforcer.Api.Types

/-!
# Which workloads are protected

`kubectl runtime-enforcer policy show protection`, of
`internal/kubectlplugin/policy_show_protection.go`: a table of the workloads whose pods carry the
label of a policy, with the policy and its state. The workload of a pod is read off its name and
labels (`GetTruncatedWorkloadInfo`), and the pods of one workload are told from others by namespace
and workload name.
-/

set_option autoImplicit false

namespace RuntimeEnforcer.Kubectlplugin

open Lib
open Podworkload (Kind getTruncatedWorkloadInfo)

def slash : UInt8 := 0x2f

abbrev Namespace := { s : Bytes // slash ∉ s }

structure NamespacedName where
  ns : Namespace
  name : Bytes
  deriving DecidableEq

def NamespacedName.string (n : NamespacedName) : Bytes := n.ns.val ++ slash :: n.name

structure Pod where
  ns : Namespace
  name : Bytes
  labels : GoMap String Bytes

structure WorkloadPolicy where
  ns : Namespace
  name : Bytes
  mode : String
  phase : Api.Phase

structure WorkloadProtectionRow where
  workload : Bytes
  kind : String
  policy : Bytes
  mode : String
  status : String
  deriving DecidableEq

inductive Panic
  | workload (p : Podworkload.Panic)
  | unknownMode (mode : String)
  deriving DecidableEq, Repr

def unknownMode : String := "Unknown"

def missingStatus : String := "Missing"

def modeToUpper (mode : String) : Except Panic String :=
  if mode = Mode.monitor.string then .ok "Monitor"
  else if mode = Mode.protect.string then .ok "Protect"
  else .error (.unknownMode mode)

def phaseString : Api.Phase → String
  | .unset => ""
  | .transitioning => "Transitioning"
  | .failed => "Failed"
  | .ready => "Ready"

/-- The label of the policy; a missing one reads as the empty string. -/
def Pod.policyName (pod : Pod) : Bytes := (pod.labels.lookup policyLabelKey).getD []

def policyByNamespacedName (workloadPolicies : List WorkloadPolicy) :
    GoMap NamespacedName WorkloadPolicy :=
  workloadPolicies.foldl (fun m policy => m.insert ⟨policy.ns, policy.name⟩ policy) ∅

/-- `Mode` and `Status` of a row, of the policy if there is one. -/
def modeAndStatus : Option WorkloadPolicy → Except Panic (String × String)
  | none => .ok (unknownMode, missingStatus)
  | some policy => (modeToUpper policy.mode).map fun mode => (mode, phaseString policy.phase)

def addPod (policies : GoMap NamespacedName WorkloadPolicy)
    (rowsByKey : GoMap NamespacedName WorkloadProtectionRow) (pod : Pod) :
    Except Panic (GoMap NamespacedName WorkloadProtectionRow) :=
  if pod.policyName = [] then .ok rowsByKey
  else
    match getTruncatedWorkloadInfo pod.name pod.labels with
    | .error p => .error (.workload p)
    | .ok (workloadName, workloadKind, _) =>
      let workloadNamespacedName : NamespacedName := ⟨pod.ns, workloadName⟩
      if (rowsByKey.lookup workloadNamespacedName).isSome then .ok rowsByKey
      else
        match modeAndStatus (policies.lookup ⟨pod.ns, pod.policyName⟩) with
        | .error p => .error p
        | .ok (mode, status) => .ok (rowsByKey.insert workloadNamespacedName
            { workload := workloadNamespacedName.string
              kind := workloadKind.string
              policy := pod.policyName
              mode
              status })

def buildWorkloadProtectionRows (order : Order NamespacedName WorkloadProtectionRow)
    (pods : List Pod) (workloadPolicies : List WorkloadPolicy) :
    Except Panic (List WorkloadProtectionRow) :=
  (pods.foldlM (addPod (policyByNamespacedName workloadPolicies)) ∅).map fun rowsByKey =>
    ((order.range 0 rowsByKey).map Sigma.snd).insertionSort fun a b => a.workload ≤ b.workload

end RuntimeEnforcer.Kubectlplugin
