import RuntimeEnforcer.Agent.PodWorkload
import RuntimeEnforcer.Api.Types

/-!
# Proposals, and the policies they become

`api/v1alpha1/workloadpolicyproposal_types.go`, the labels of `keys.go`, `SetPromotedLabel`, and
`internal/eventhandler/proposalutils`. A proposal holds what the agents have learned for one
workload; a label on it asks for its promotion to a policy, and a label on the policy says which
proposal it comes from.

Of an object's metadata the model keeps what these functions read: labels, owner references (as the
agents write them, kind and name) and the deletion timestamp.
-/

set_option autoImplicit false

namespace RuntimeEnforcer.Api

open Lib Podworkload

def proposalPromoteLabelKey : String := "runtimeenforcer.kubewarden.io/promote"
def policyPromotedFromLabelKey : String := "runtimeenforcer.kubewarden.io/promoted-from"

def policyProposalMaxExecutables : Nat := 100

structure OwnerReference where
  kind : Kind
  name : String
  deriving DecidableEq

structure WorkloadPolicyProposal where
  labels : GoMap String String := ∅
  ownerReferences : List OwnerReference := []
  deletionTimestamp : Option Time := none
  rulesByContainer : GoMap ContainerName WorkloadPolicyRules := ∅

namespace WorkloadPolicyProposal

def getExecutablesLength (p : WorkloadPolicyProposal) : Nat :=
  GoMap.sum (fun value => value.allowed.length) p.rulesByContainer

def isFull (p : WorkloadPolicyProposal) : Bool :=
  decide (p.getExecutablesLength ≥ policyProposalMaxExecutables)

def setPromotionLabel (p : WorkloadPolicyProposal) (mode : Mode) : WorkloadPolicyProposal :=
  { p with labels := p.labels.insert proposalPromoteLabelKey mode.string }

/-- `HasPromotionLabel`; a label with another value counts as none. -/
def hasPromotionLabel (p : WorkloadPolicyProposal) : Option Mode :=
  match p.labels.lookup proposalPromoteLabelKey with
  | none => none
  | some val =>
    if val = Mode.monitor.string then some .monitor
    else if val = Mode.protect.string then some .protect
    else none

def addProcess (p : WorkloadPolicyProposal) (containerName : ContainerName) (executable : Bytes) :
    WorkloadPolicyProposal :=
  match p.rulesByContainer.lookup containerName with
  | none =>
    { p with rulesByContainer := p.rulesByContainer.insert containerName
              { allowed := [executable] } }
  | some rules =>
    if executable ∈ rules.allowed then p
    else
      { p with rulesByContainer := p.rulesByContainer.insert containerName
                { rules with allowed := rules.allowed ++ [executable] } }

def setAllowForeignRootExec (p : WorkloadPolicyProposal) (containerName : ContainerName) :
    WorkloadPolicyProposal :=
  match p.rulesByContainer.lookup containerName with
  | none =>
    { p with rulesByContainer := p.rulesByContainer.insert containerName
              { allowed := [], options := AList.singleton optionAllowForeignRootExec "1" } }
  | some rules =>
    { p with rulesByContainer := p.rulesByContainer.insert containerName
              { rules with options := rules.options.insert optionAllowForeignRootExec "1" } }

def addPartialOwnerReferenceDetails (p : WorkloadPolicyProposal) (workloadKind : Kind)
    (workload : String) : WorkloadPolicyProposal :=
  { p with ownerReferences := [⟨workloadKind, workload⟩] }

@[simp] theorem hasPromotionLabel_setPromotionLabel (p : WorkloadPolicyProposal) (mode : Mode) :
    (p.setPromotionLabel mode).hasPromotionLabel = some mode := by
  cases mode <;> simp [hasPromotionLabel, setPromotionLabel, Mode.string]

/-- The label is a function of the labels, so what leaves them alone leaves it alone. -/
theorem hasPromotionLabel_congr {p p' : WorkloadPolicyProposal} (h : p'.labels = p.labels) :
    p'.hasPromotionLabel = p.hasPromotionLabel := by
  simp only [hasPromotionLabel, h]

theorem labels_addProcess (p : WorkloadPolicyProposal) (c : ContainerName) (exe : Bytes) :
    (p.addProcess c exe).labels = p.labels := by
  unfold addProcess
  split
  · rfl
  · split <;> rfl

theorem labels_setAllowForeignRootExec (p : WorkloadPolicyProposal) (c : ContainerName) :
    (p.setAllowForeignRootExec c).labels = p.labels := by
  unfold setAllowForeignRootExec
  split <;> rfl

end WorkloadPolicyProposal

/-! ## Equality of objects -/

/-- `Semantic.DeepEqual` on the rules of a container. -/
def deepEqualRules (r r' : WorkloadPolicyRules) : Bool :=
  decide (r.allowed = r'.allowed) && r.options.deepEqual (fun v v' => decide (v = v')) r'.options

/-- `Semantic.DeepEqual` on proposals: maps are compared key by key. -/
def WorkloadPolicyProposal.deepEqual (p p' : WorkloadPolicyProposal) : Bool :=
  p.labels.deepEqual (fun v v' => decide (v = v')) p'.labels &&
    decide (p.ownerReferences = p'.ownerReferences) &&
    decide (p.deletionTimestamp = p'.deletionTimestamp) &&
    p.rulesByContainer.deepEqual deepEqualRules p'.rulesByContainer

theorem WorkloadPolicyProposal.deepEqual_self (p : WorkloadPolicyProposal) :
    p.deepEqual p = true := by
  have hrules : ∀ r, deepEqualRules r r = true := fun r => by
    simp [deepEqualRules, GoMap.deepEqual_self]
  simp [WorkloadPolicyProposal.deepEqual, GoMap.deepEqual_self, hrules]

/-- Equal proposals allow the same in each container. -/
theorem WorkloadPolicyProposal.deepEqual_allowed {p p' : WorkloadPolicyProposal}
    (h : p.deepEqual p' = true) {c : ContainerName} {r' : WorkloadPolicyRules}
    (hr : p'.rulesByContainer.lookup c = some r') :
    ∃ r, p.rulesByContainer.lookup c = some r ∧ r.allowed = r'.allowed := by
  obtain ⟨r, hlook, heq⟩ := GoMap.deepEqual_lookup (Bool.and_eq_true_iff.mp h).2 hr
  exact ⟨r, hlook, of_decide_eq_true (Bool.and_eq_true_iff.mp heq).1⟩

/-! ## The policy of a proposal -/

/-- `WorkloadPolicy`, with its labels. -/
structure PromotedPolicy extends RuntimeEnforcer.WorkloadPolicy where
  labels : GoMap String String := ∅

def PromotedPolicy.setPromotedLabel (wp : PromotedPolicy) (proposalName : String) :
    Except String PromotedPolicy :=
  if proposalName.utf8ByteSize > 63 then .error s!"proposalName \"{proposalName}\" is too long"
  else .ok { wp with labels := wp.labels.insert policyPromotedFromLabelKey proposalName }

/-- The `WorkloadPolicy` literal of `WorkloadPolicyProposalReconciler.Reconcile`, with
`IntoWorkloadPolicySpec`: the name and the namespace are the proposal's. -/
def WorkloadPolicyProposal.intoWorkloadPolicy (p : WorkloadPolicyProposal) (key : ObjectMeta)
    (mode : Mode) : PromotedPolicy :=
  { toObjectMeta := key, mode, rulesByContainer := p.rulesByContainer }

/-- `HasProposalBeenPromoted`, over the policies of the proposal's namespace. -/
def hasProposalBeenPromoted (policies : GoMap String PromotedPolicy) (proposalName : String) :
    Bool :=
  policies.entries.any fun e =>
    decide (e.2.labels.lookup policyPromotedFromLabelKey = some proposalName)

theorem hasProposalBeenPromoted_iff {policies : GoMap String PromotedPolicy}
    {proposalName : String} :
    hasProposalBeenPromoted policies proposalName = true ↔
      ∃ name wp, policies.lookup name = some wp ∧
        wp.labels.lookup policyPromotedFromLabelKey = some proposalName := by
  simp only [hasProposalBeenPromoted, List.any_eq_true, decide_eq_true_eq]
  constructor
  · rintro ⟨⟨name, wp⟩, hmem, hlabel⟩
    exact ⟨name, wp, GoMap.mem_entries.mp hmem, hlabel⟩
  · rintro ⟨name, wp, hlook, hlabel⟩
    exact ⟨⟨name, wp⟩, GoMap.mem_entries.mpr hlook, hlabel⟩

inductive ProposalNameErr
  | kind (kind : Kind)
  | tooLong (name : String)

def getWorkloadPolicyProposalName (kind : Kind) (resourceName : String) :
    Except ProposalNameErr String :=
  match kind.shortName with
  | none => .error (.kind kind)
  | some shortname =>
    let ret := shortname ++ "-" ++ resourceName
    if ret.utf8ByteSize > 253 then .error (.tooLong ret) else .ok ret

end RuntimeEnforcer.Api
