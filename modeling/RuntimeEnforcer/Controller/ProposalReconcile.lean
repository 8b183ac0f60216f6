import RuntimeEnforcer.Controller.ProposalRun

/-!
# `WorkloadPolicyProposalReconciler.Reconcile` in one piece

`ProposalRun` takes the calls of the controller apart, so that others can come in between, and does
not keep what they return. Here is one whole call that nobody disturbs, with its error: the reads
are current and the writes are answered. Whether the API server takes a policy is up to the server
(`accepts`); `PromotedPolicy.Valid` is what the schema and the metadata rules ask of one.

An error has the call repeated (`reconcileAgain`). A repetition finds the same proposal and the same
policies, so a policy that the server refuses is refused again.
-/

set_option autoImplicit false

namespace RuntimeEnforcer.Api

open Lib

/-- What `Reconcile` returns besides nil: `failed to set promoted label` and
`failed to create WorkloadPolicy`, with the error that it wraps. -/
inductive ReconcileErr
  | setPromotedLabel (e : String)
  | create (e : WriteErr)
  deriving DecidableEq, Repr

/-- The proposal of one name and the policies of its namespace. -/
structure ProposalStore where
  proposal : Option WorkloadPolicyProposal
  policies : GoMap String PromotedPolicy

/-- The `Create` of a policy by a server that may refuse it. -/
def tryCreatePolicy (accepts : PromotedPolicy → Bool) (policy : PromotedPolicy)
    (policies : GoMap String PromotedPolicy) : Except WriteErr (GoMap String PromotedPolicy) :=
  if accepts policy then createPolicyIn policy policies else .error (.status 422)

def reconcile (accepts : PromotedPolicy → Bool) (key : ObjectMeta) (c : ProposalStore) :
    ProposalStore × Option ReconcileErr :=
  match c.proposal with
  | none => (c, none)
  | some proposal =>
    if proposal.deletionTimestamp.isSome then (c, none)
    else if hasProposalBeenPromoted c.policies key.name then ({ c with proposal := none }, none)
    else
      match proposal.hasPromotionLabel with
      | none => (c, none)
      | some mode =>
        match (proposal.intoWorkloadPolicy key mode).setPromotedLabel key.name with
        | .error e => (c, some (.setPromotedLabel e))
        | .ok policy =>
          match tryCreatePolicy accepts policy c.policies with
          | .error .alreadyExists => (c, none)
          | .error e => (c, some (.create e))
          | .ok policies => ({ proposal := none, policies }, none)

/-- The call of the `n`-th retry. -/
def reconcileAgain (accepts : PromotedPolicy → Bool) (key : ObjectMeta) (c : ProposalStore)
    (n : Nat) : ProposalStore × Option ReconcileErr :=
  reconcile accepts key ((fun c => (reconcile accepts key c).1)^[n] c)

/-! ## What the API server asks of the objects -/

/-- The pattern of the allowed paths, `^/.*$`. -/
def validPath (path : Bytes) : Bool := decide (path.head? = some 0x2f) && decide (0x0a ∉ path)

/-- Every allowed path matches its pattern. -/
def ValidRules (rulesByContainer : GoMap ContainerName WorkloadPolicyRules) : Prop :=
  ∀ c rules, rulesByContainer.lookup c = some rules → ∀ path ∈ rules.allowed, validPath path = true

/-- A policy that the API server has no reason to refuse. Those that are created here have one
label. -/
structure PromotedPolicy.Valid (wp : PromotedPolicy) : Prop where
  name : SubdomainName wp.name
  labels : ∀ k v, wp.labels.lookup k = some v →
    k = policyPromotedFromLabelKey ∧ LabelValue v
  rules : ValidRules wp.rulesByContainer

end RuntimeEnforcer.Api
