import RuntimeEnforcer.Lib.KubeNames
import RuntimeEnforcer.Manager.PolicyValues
import RuntimeEnforcer.Manager.PolicySettings
import RuntimeEnforcer.Manager.Cgroups

/-!
# What the resolver knows

`internal/resolver/types.go`, `podentry.go`, the fields of `resolver.go`, and the parts of
`api/v1alpha1` the resolver reads. Two facts that Kubernetes guarantees are carried by the types:
a namespace contains no slash, so that `namespace/name` names one policy, and a policy has a name.

The resolver's maps are `GoMap`s; the pointers in them are never shared between two keys, so a
pointer is its value, and a change through one is written back where the source makes it.
-/

set_option autoImplicit false

namespace RuntimeEnforcer

open Lib

abbrev ContainerID := String
abbrev PodID := String
abbrev ContainerName := String

abbrev Namespace := { s : String // '/' ∉ s.toList }

abbrev NamespacedPolicyName := String

def namespacedName (ns : Namespace) (name : String) : NamespacedPolicyName := ns.val ++ "/" ++ name

theorem namespacedName_inj {ns ns' : Namespace} {name name' : String}
    (h : namespacedName ns name = namespacedName ns' name') : ns = ns' ∧ name = name' := by
  have hl : ns.val.toList ++ '/' :: name.toList = ns'.val.toList ++ '/' :: name'.toList := by
    simpa [namespacedName, String.toList_append] using congrArg String.toList h
  obtain ⟨hns, hname⟩ := append_separator_inj ns.2 ns'.2 hl
  exact ⟨Subtype.ext (String.toList_injective hns), String.toList_injective hname⟩

/-! ## Policies -/

def isSpace (c : Char) : Bool :=
  [0x20, 0x85, 0xa0, 0x1680, 0x2028, 0x2029, 0x202f, 0x205f, 0x3000].contains c.toNat ||
    (0x09 ≤ c.toNat && c.toNat ≤ 0x0d) || (0x2000 ≤ c.toNat && c.toNat ≤ 0x200a)

/-- `optionEnabled`. Lower-casing ASCII letters is enough: no other letter has one of `true` as its
lower case. -/
def optionEnabled (value : String) : Bool :=
  let trimmed := ((value.toList.dropWhile isSpace).rdropWhile isSpace).map Char.toLower
  trimmed = "1".toList || trimmed = "true".toList

structure WorkloadPolicyRules where
  allowed : List Bytes
  options : GoMap String String := ∅

def optionAllowForeignRootExec : String := "ALLOW_FOREIGN_ROOT_EXEC"

/-- `AllowForeignRootExec`; a missing key reads as the empty string. -/
def WorkloadPolicyRules.allowForeignRootExec (r : WorkloadPolicyRules) : Bool :=
  optionEnabled ((r.options.lookup optionAllowForeignRootExec).getD "")

structure ObjectMeta where
  ns : Namespace
  name : String
  name_ne : name ≠ ""

namespace Sample

def ns : Namespace := ⟨"default", by decide⟩

def prod : Namespace := ⟨"prod", by decide⟩

def web : ObjectMeta := ⟨ns, "web", by decide⟩

end Sample

def ObjectMeta.namespacedName (o : ObjectMeta) : NamespacedPolicyName :=
  RuntimeEnforcer.namespacedName o.ns o.name

/-- `WorkloadPolicy`, with the two fields of its spec. -/
structure WorkloadPolicy extends ObjectMeta where
  mode : Mode
  rulesByContainer : GoMap ContainerName WorkloadPolicyRules

/-- `agentv1.PolicyState`. The enumeration is open: a peer may send a number without a name. -/
inductive PolicyState
  | unspecified
  | ready
  | error
  | unrecognized (number : Int) (h : number < 0 ∨ 2 < number)
  deriving DecidableEq, Repr

/-- `agentv1.PolicyMode`, open like `PolicyState`. -/
inductive PolicyMode
  | unspecified
  | monitor
  | protect
  | unrecognized (number : Int) (h : number < 0 ∨ 2 < number)
  deriving DecidableEq, Repr

def Mode.toProto : Mode → PolicyMode
  | .monitor => .monitor
  | .protect => .protect

structure PolicyStatus where
  state : PolicyState := .unspecified
  mode : PolicyMode := .unspecified
  message : String := ""
  deriving DecidableEq, Repr

abbrev PolicyByContainer := GoMap ContainerName PolicyID

structure WpInfo where
  polByContainer : PolicyByContainer := ∅
  status : PolicyStatus := {}

/-! ## Pods -/

structure PodMeta where
  id : PodID
  ns : Namespace
  name : String
  labels : GoMap String String

def policyLabelKey : String := "runtimeenforcer.kubewarden.io/policy"

/-- The policy a pod's label names; a missing label reads as the empty string. -/
def PodMeta.policyName (pod : PodMeta) : String := (pod.labels.lookup policyLabelKey).getD ""

/-- The policy a pod's namespace and label name. -/
def PodMeta.policyKey (pod : PodMeta) : NamespacedPolicyName := namespacedName pod.ns pod.policyName

/-- No policy is named by a missing label. -/
theorem PodMeta.policyName_ne {pod : PodMeta} {wp : ObjectMeta}
    (h : pod.policyKey = wp.namespacedName) : pod.policyName ≠ "" := by
  rw [(namespacedName_inj h).2]
  exact wp.name_ne

@[ext]
structure ContainerMeta where
  name : ContainerName
  cgroupID : CgroupID
  deriving DecidableEq, Repr

structure ContainerInput extends ContainerMeta where
  cgroupPath : String := ""

structure PodInput where
  podMeta : PodMeta
  containers : GoMap ContainerID ContainerInput

structure PodEntry where
  podMeta : PodMeta
  containers : GoMap ContainerID ContainerMeta

namespace PodEntry

variable (pod : PodEntry)

def policyName : String := pod.podMeta.policyName

def podName : String := pod.podMeta.name

def podNamespace : Namespace := pod.podMeta.ns

def matchPolicy (policyName : String) (policyNamespace : Namespace) : Bool :=
  pod.policyName = policyName ∧ pod.podNamespace = policyNamespace

/-- The pods a policy matches are those whose label names it. -/
theorem matchPolicy_iff {pod : PodEntry} {wp : ObjectMeta} :
    pod.matchPolicy wp.name wp.ns = true ↔ pod.podMeta.policyKey = wp.namespacedName := by
  simp only [matchPolicy, decide_eq_true_eq]
  constructor
  · rintro ⟨h₁, h₂⟩
    exact congr_arg₂ namespacedName h₂ h₁
  · intro h
    obtain ⟨h₁, h₂⟩ := namespacedName_inj h
    exact ⟨h₂, h₁⟩

end PodEntry

def convertPodData (pod : PodInput) : PodEntry where
  podMeta := pod.podMeta
  containers := ∅

/-! ## Errors, surroundings, state -/

/-- An error of the resolver, by the place it is made at. -/
inductive ResolverErr
  | populate (wp : NamespacedPolicyName) (container : ContainerName) (e : BpfErr)
  | addCgroups (pod : String) (container : ContainerName) (policy : String) (e : BpfErr)
  | removeCgroups (pod : String) (container : ContainerName) (policy : String) (e : BpfErr)
  | clear (wp : NamespacedPolicyName) (container : ContainerName) (e : BpfErr)
  | removePolicy (e : BpfErr)
  | tracker (pod : String) (container : ContainerName) (e : BpfErr)
  | removeContainer (e : BpfErr)
  | containerExists (containerID : ContainerID) (pod : String) (old new : ContainerMeta)
  | noPolicy (ns pod policy : String)
  | applyToPod (e : ResolverErr)

def ResolverErr.error : ResolverErr → String
  | .populate wp container e =>
    s!"failed to populate policy for wp {wp}, container {container}: " ++ e.error
  | .addCgroups pod container policy e =>
    s!"failed to add policy to cgroups for pod {pod}, container {container}, policy {policy}: "
      ++ e.error
  | .removeCgroups pod container policy e =>
    s!"failed to remove cgroups for pod {pod}, container {container}, policy {policy}: " ++ e.error
  | .clear wp container e =>
    s!"failed to clear policy for wp {wp}, container {container}: " ++ e.error
  | .removePolicy e => "failed to remove policy from cgroup map: " ++ e.error
  | .tracker pod container e =>
    s!"failed to update cgroup tracker map for pod {pod}, container {container}: " ++ e.error
  | .removeContainer e => e.error
  | .containerExists containerID pod old new =>
    s!"containerID {containerID} for pod {pod} already exists. old (name: {old.name}," ++
    s!"cID: {old.cgroupID}) new (name: {new.name},cID: {new.cgroupID})"
  | .noPolicy ns pod policy =>
    s!"pod '{ns}/{pod}' has policy '{policy}' associated, but the policy does not exist"
  | .applyToPod e => "failed to apply policy to pod: " ++ e.error

/-- Whether a BPF update function failed. -/
def ResolverErr.isBpf : ResolverErr → Bool
  | .containerExists .. => false
  | .noPolicy .. => false
  | .applyToPod e => e.isBpf
  | _ => true

/-- What the resolver finds and cannot choose: besides the manager's, the order of its loops over
maps. -/
structure Env extends ManagerEnv where
  rules : Order ContainerName WorkloadPolicyRules
  policies : Order ContainerName PolicyID
  pods : Order PodID PodEntry
  containers : Order ContainerID ContainerMeta
  inputs : Order ContainerID ContainerInput

/-- Every call succeeds, and every loop goes in the order entries are stored in. -/
def Env.calm : Env where
  toManagerEnv := .calm
  rules := .stored
  policies := .stored
  pods := .stored
  containers := .stored
  inputs := .stored

/-- What happens to a container's entry in the cache. -/
inductive CacheEvent
  | added (pod : PodID) (container : ContainerID)
  | tracked (cg : CgroupID)
  deriving DecidableEq, Repr

/-- `Resolver`, with the maps its update functions work on. `events` is a history variable, newest
first. -/
structure Resolver where
  podCache : GoMap PodID PodEntry := ∅
  cgroupIDToPodID : GoMap CgroupID PodID := ∅
  nextPolicyID : PolicyID := 1
  wpState : GoMap NamespacedPolicyName WpInfo := ∅
  world : World := { maps := .empty }
  events : List CacheEvent := []

abbrev ResolverM := EStateM ResolverErr Resolver

end RuntimeEnforcer
