import RuntimeEnforcer.Api.Proposal
import RuntimeEnforcer.Lib.Versioned

/-!
# Learning from one event

`internal/eventhandler/learning_controller.go`: what an agent does with one `KubeProcessInfo`, cut
where it talks to the API server. `gate` is what comes before the proposal is read, `mutate` the
function given to `CreateOrUpdate`, `createOrUpdate` the write it decides on, and `settle` what
`Reconcile` makes of the outcome. The requests in between are steps of a run
(`Controller/ProposalRun`), because other agents' steps fall between them.
-/

set_option autoImplicit false

namespace RuntimeEnforcer.Eventhandler

open Lib Podworkload Api

structure KubeProcessInfo where
  ns : Namespace
  workload : String
  workloadKind : Kind
  containerName : ContainerName
  executablePath : Bytes
  podName : String := ""
  containerID : ContainerID := ""
  policyName : String := ""
  foreignRoot : Bool := false
  deriving DecidableEq

/-- How a call of `Reconcile` ends. Without an error it has either left the proposal alone
(`skipped`) or gone through `CreateOrUpdate` (`learned`). A conflict is answered with `RequeueAfter`
(`requeued`), until there was one too many: then the error is terminal and the count is forgotten
(`exhausted`). Every other error is `failed`. -/
inductive Outcome
  | skipped
  | learned
  | requeued
  | exhausted
  | failed
  deriving DecidableEq, Repr

/-- How the `Get` of the event's namespace ends. -/
inductive NamespaceRead
  | found (selected : Bool)
  | notFound
  | failed
  deriving DecidableEq, Repr

/-- `reconcile` up to the first look at the proposal: how the event ends here, or the name of its
proposal. `skipOrLearn` tests the policy name first. -/
def gate (req : KubeProcessInfo) (ns : NamespaceRead) : Outcome ⊕ String :=
  if req.workloadKind = .pod then .inl .skipped
  else
    match ns with
    | .notFound => .inl .skipped
    | .failed => .inl .failed
    | .found false => .inl .skipped
    | .found true =>
      match getWorkloadPolicyProposalName req.workloadKind req.workload with
      | .error _ => .inl .failed
      | .ok proposalName => if req.policyName ≠ "" then .inl .skipped else .inr proposalName

/-- The last lines of the function: `OwnerRefEnricher`, unless there is an owner already. -/
def enrichOwnerRef (req : KubeProcessInfo) (p : WorkloadPolicyProposal) : WorkloadPolicyProposal :=
  if p.ownerReferences ≠ [] then p
  else p.addPartialOwnerReferenceDetails req.workloadKind req.workload

/-- The function that `reconcile` gives to `CreateOrUpdate`. -/
def mutate (req : KubeProcessInfo) (p : WorkloadPolicyProposal) : WorkloadPolicyProposal :=
  if p.hasPromotionLabel.isSome then p
  else if req.foreignRoot then enrichOwnerRef req (p.setAllowForeignRootExec req.containerName)
  else if p.isFull then p
  else enrichOwnerRef req (p.addProcess req.containerName req.executablePath)

inductive Write
  | keep
  | create (carried : Option Nat) (obj : WorkloadPolicyProposal)
  | update (existing : Stored WorkloadPolicyProposal) (obj : WorkloadPolicyProposal)

/-- The write of `CreateOrUpdate`, as the API server carries it out. There is none if nothing was
changed, and a create carries the `resourceVersion` that is set on the object, if any. -/
def Write.carryOut (w : Write) (s : Slot WorkloadPolicyProposal) :
    Except WriteErr (Slot WorkloadPolicyProposal) :=
  match w with
  | .keep => .ok s
  | .create carried obj => s.create carried obj
  | .update existing obj => s.update existing.version obj

/-- `CreateOrUpdate`, after its own `Get`. `seen` is what `skipOrLearn` has read into the object,
and a `Get` that finds nothing leaves it there, its version included. -/
def createOrUpdate (req : KubeProcessInfo) (seen : Option (Stored WorkloadPolicyProposal)) :
    Option (Stored WorkloadPolicyProposal) → Write
  | some existing =>
    let obj := mutate req existing.value
    if existing.value.deepEqual obj then .keep else .update existing obj
  | none =>
    .create (seen.map Stored.version) (mutate req ((seen.map Stored.value).getD {}))

/-- `handleAdmissionError`: the error that is left. -/
def handleAdmissionError : WriteErr → Option WriteErr
  | .status code => if code = 422 ∨ code = 410 then none else some (.status code)
  | e => some e

def maxConflictRetries : Nat := 15

/-- `Reconcile`, from the error of the write and `NumRequeues` on. -/
def settle (numRequeues : Nat) (err : Option WriteErr) : Outcome :=
  match err.bind handleAdmissionError with
  | none => .learned
  | some .conflict | some .alreadyExists =>
    if numRequeues > maxConflictRetries then .exhausted else .requeued
  | some _ => .failed

def Outcome.numRequeues : Outcome → Nat → Nat
  | .requeued, n => n + 1
  | .failed, n => n
  | _, _ => 0

/-- An error that counts as success is a rejection by the webhook. -/
theorem settle_learned {n : Nat} {err : Option WriteErr} (h : settle n err = .learned) :
    err = none ∨ err = some (.status 422) ∨ err = some (.status 410) := by
  rcases err with _ | _ | _ | _ | code | _
  · exact .inl rfl
  · simp only [settle, Option.bind_some, handleAdmissionError] at h
    split at h <;> cases h
  · simp only [settle, Option.bind_some, handleAdmissionError] at h
    split at h <;> cases h
  · cases h
  · by_cases hc : code = 422 ∨ code = 410
    · rcases hc with rfl | rfl
      · exact .inr (.inl rfl)
      · exact .inr (.inr rfl)
    · simp [settle, handleAdmissionError, hc] at h
  · cases h

end RuntimeEnforcer.Eventhandler
