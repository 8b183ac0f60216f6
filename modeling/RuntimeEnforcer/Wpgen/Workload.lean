import RuntimeEnforcer.Agent.PodWorkload
import RuntimeEnforcer.Lib.KubeNames
import RuntimeEnforcer.Wpgen.ImageCheck

/-!
# Drafting policies for workloads

`draftWorkloads` of `internal/wpgen`: each workload of a manifest gets the name of its policy, from
the label of its pods or from its own kind and name, and the command stops when two of them could
end up with one policy. A workload without a namespace goes wherever the manifest is applied.

So two workloads of one policy name are told apart by their namespaces, and only if both have one.
The owners of a name are kept in the order of the manifest, and the error is about the first of them
that is in the way.
-/

set_option autoImplicit false

namespace RuntimeEnforcer.Wpgen

open Lib

def policyLabelKey : String := "runtimeenforcer.kubewarden.io/policy"

structure Workload where
  kind : Podworkload.Kind
  name : String
  ns : String := ""
  podLabels : GoMap String String := ∅
  containers : List Container := []

structure DraftedWorkload extends Workload where
  policyName : String
  labelPresent : Bool

structure PolicyOwner where
  ns : String
  name : String
  deriving DecidableEq, Repr

/-- What `draftWorkloads` reports: `ShortName` knows no such kind, the name fails
`validatePolicyName`, or `policyConflict` finds two owners of one policy, in one namespace or one of
them without a namespace. -/
inductive DraftErr
  | unknownKind (kind : Podworkload.Kind)
  | invalidPolicyName (kind : Podworkload.Kind) (name policyName : String) (msgs : List String)
  | sameNamespace (first second : PolicyOwner) (policyName : String)
  | withoutNamespace (first second : PolicyOwner) (policyName : String)
  deriving DecidableEq, Repr

def namespaceLabel (ns : String) : String := if ns = "" then "<none>" else ns

def DraftErr.error : DraftErr → String
  | .unknownKind kind => s!"unknown kind: {kind.string}"
  | .invalidPolicyName kind name policyName msgs =>
    s!"{kind.string} {name.quote}: invalid policy name {policyName.quote}: " ++
      ", ".intercalate msgs
  | .sameNamespace first second policyName =>
    s!"{first.name} and {second.name} both use the policy {policyName.quote} " ++
      s!"in the same namespace, give them different {policyLabelKey} labels"
  | .withoutNamespace first second policyName =>
    s!"{first.name} (namespace {namespaceLabel first.ns}) and " ++
      s!"{second.name} (namespace {namespaceLabel second.ns}) both use the policy " ++
      s!"{policyName.quote} and one has no namespace, give them different {policyLabelKey} " ++
      "labels or set a different namespace on each"

/-- The policy name becomes the name of an object and the value of a label, and has to pass the
checks of both. The error holds the messages, the first check's before the second's. -/
def validatePolicyName (v : NameValidation) (policyName : String) : Except (List String) Unit :=
  let msgs := v.isDNS1123Subdomain policyName ++ v.isValidLabelValue policyName
  if msgs = [] then .ok () else .error msgs

def policyConflict (first second : PolicyOwner) (policyName : String) : Except DraftErr Unit :=
  if first.ns = second.ns then .error (.sameNamespace first second policyName)
  else if first.ns = "" ∨ second.ns = "" then .error (.withoutNamespace first second policyName)
  else .ok ()

/-- `PolicyName` and `LabelPresent` of a workload. -/
def Workload.policyNameAndLabel (w : Workload) : Except DraftErr (String × Bool) :=
  match w.podLabels.lookup policyLabelKey with
  | some value => .ok (value, true)
  | none =>
    match w.kind.shortName with
    | none => .error (.unknownKind w.kind)
    | some shortName => .ok (shortName ++ "-" ++ w.name, false)

def Workload.owner (w : Workload) : PolicyOwner := ⟨w.ns, s!"{w.kind.string} {w.name.quote}"⟩

structure Drafting where
  drafted : List DraftedWorkload := []
  owners : GoMap String (List PolicyOwner) := ∅

/-- One round of the loop of `draftWorkloads`. -/
def Drafting.add (v : NameValidation) (st : Drafting) (w : Workload) :
    Except DraftErr Drafting := do
  let (policyName, labelPresent) ← w.policyNameAndLabel
  (validatePolicyName v policyName).mapError (.invalidPolicyName w.kind w.name policyName)
  let others := (st.owners.lookup policyName).getD []
  others.forM fun other => policyConflict other w.owner policyName
  .ok { drafted := st.drafted ++ [{ toWorkload := w, policyName, labelPresent }]
        owners := st.owners.insert policyName (others ++ [w.owner]) }

def draftWorkloads (v : NameValidation) (workloads : List Workload) :
    Except DraftErr (List DraftedWorkload) :=
  (workloads.foldlM (Drafting.add v) {}).map Drafting.drafted

end RuntimeEnforcer.Wpgen
