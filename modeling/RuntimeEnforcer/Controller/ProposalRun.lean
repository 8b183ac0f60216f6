import RuntimeEnforcer.Agent.Learning
import RuntimeEnforcer.Lib.Run

/-!
# One proposal between agents, users and the controller

The life of one proposal. Any number of agents handle events (`LearningReconciler.Reconcile`), a
user labels the proposal for promotion (`runProposalPromote`, or an edit that does the same without
looking at the label), and the controller turns a labelled proposal into a policy and deletes it
(`WorkloadPolicyProposalReconciler.Reconcile`). Every request to the API server is a step of its
own, so that the steps of the parties interleave in every way. A read may be behind by any number
of writes, and the answer to a write may get lost. Events whose proposal is another one are no steps
here.

`results`, `labelled` and `created` are history variables: how the agents' calls ended, the versions
of the proposal in which a promotion label was set, and the policies that the controller created,
each with the version of the proposal it had read.

What keeps the parties apart is in `Lib.Versioned`: a write carries the version it was computed
from, and is refused if another has come in between. An agent reads the proposal twice, once to
decide whether to learn at all and once in `CreateOrUpdate`, and the two reads may be behind by
different amounts. The policies have no such protection. The controller asks whether one was
promoted from the proposal in a read that may be behind as well, and then relies on the name of the
policy, which can be created once.
-/

set_option autoImplicit false

namespace RuntimeEnforcer.Api

open Lib Eventhandler

/-- Where an agent is with an event: before the `Get` of `skipOrLearn`; before the `List` of the
policies, when that has found nothing; before the `Get` of `CreateOrUpdate`; and before its
write. -/
inductive LearnStage
  | idle
  | checking (req : KubeProcessInfo)
  | absent (req : KubeProcessInfo)
  | learning (req : KubeProcessInfo) (seen : Option (Stored WorkloadPolicyProposal))
  | writing (req : KubeProcessInfo) (write : Write)

/-- Where the controller is with the proposal: it was read, its policy is to be created, or it is to
be deleted itself. -/
inductive PromoteStage
  | idle
  | got (proposal : Stored WorkloadPolicyProposal)
  | creating (proposal : Stored WorkloadPolicyProposal) (policy : PromotedPolicy)
  | deleting

variable (ν : Type)

/-- The proposal, the policies of its namespace with what they were before, and where each party is:
the agents, with the `NumRequeues` of their rate limiters, the user, who holds the proposal that is
about to be labelled, and the controller. `results`, `labelled` and `created` are history
variables. -/
structure ProposalRun where
  key : ObjectMeta
  proposal : Slot WorkloadPolicyProposal
  policies : GoMap String PromotedPolicy
  olderPolicies : List (GoMap String PromotedPolicy) := []
  agents : ν → LearnStage := fun _ => .idle
  numRequeues : ν → KubeProcessInfo → Nat := fun _ _ => 0
  user : Option (Stored WorkloadPolicyProposal) := none
  controller : PromoteStage := .idle
  results : List (KubeProcessInfo × Outcome) := []
  labelled : List (Stored WorkloadPolicyProposal) := []
  created : List (Stored WorkloadPolicyProposal × PromotedPolicy) := []

/-- A read that is `n` writes behind, or one that fails. -/
inductive Read
  | behind (n : Nat)
  | failed
  deriving DecidableEq, Repr

/-- The steps of an agent. An event is taken up and its namespace read; the two reads of
`skipOrLearn` follow, the `Get` and that of `HasProposalBeenPromoted`; then `CreateOrUpdate` reads
the proposal again and writes. -/
inductive LearnOp
  | receive (req : KubeProcessInfo) (ns : NamespaceRead)
  | get (read : Read)
  | listPolicies (read : Read)
  | getAgain (read : Read)
  | write (answer : Answer)

/-- The steps of the user, who reads the proposal, sets the label and updates it. One who overwrites
does not mind that it has a label. -/
inductive LabelOp
  | get (overwrite : Bool) (read : Read)
  | update (mode : Mode) (answer : Answer)

/-- The steps of `WorkloadPolicyProposalReconciler.Reconcile`. It deletes a proposal in two places,
both of which are `deleteProposal`. -/
inductive PromoteOp
  | get (read : Read)
  | hasProposalBeenPromoted (read : Read)
  | createPolicy (answer : Answer)
  | deleteProposal (answer : Answer)

/-- Besides the steps of the parties: somebody creates a policy, somebody deletes the proposal while
a finalizer holds it, and the proposal disappears, deleted or with its owner. -/
inductive ProposalOp
  | agent (agent : ν) (op : LearnOp)
  | user (op : LabelOp)
  | controller (op : PromoteOp)
  | addPolicy (policy : PromotedPolicy)
  | markDeleted (now : Time)
  | vanish

variable {ν}

def createPolicyIn (policy : PromotedPolicy) (policies : GoMap String PromotedPolicy) :
    Except WriteErr (GoMap String PromotedPolicy) :=
  match policies.lookup policy.name with
  | some _ => .error .alreadyExists
  | none => .ok (policies.insert policy.name policy)

namespace ProposalRun

/-- The proposal and the policies as they are when the parties start. A label that is there
already counts as set now. -/
def start (key : ObjectMeta) (proposal : Option WorkloadPolicyProposal)
    (policies : GoMap String PromotedPolicy) : ProposalRun ν :=
  { key, policies, proposal := Slot.start proposal,
    labelled := (Slot.start proposal).current.toList.filter fun v =>
      v.value.hasPromotionLabel.isSome }

/-- The policies as a client sees them that is `n` writes behind. -/
def readPolicies (s : ProposalRun ν) (n : Nat) : GoMap String PromotedPolicy :=
  (s.policies :: s.olderPolicies).getD n s.policies

def putPolicies (s : ProposalRun ν) (policies : GoMap String PromotedPolicy) : ProposalRun ν :=
  { s with policies, olderPolicies := s.policies :: s.olderPolicies }

variable [DecidableEq ν]

def move (s : ProposalRun ν) (agent : ν) (stage : LearnStage) : ProposalRun ν :=
  { s with agents := Function.update s.agents agent stage }

def finish (s : ProposalRun ν) (agent : ν) (req : KubeProcessInfo) (outcome : Outcome) :
    ProposalRun ν :=
  { s.move agent .idle with
    numRequeues := Function.update s.numRequeues agent
      (Function.update (s.numRequeues agent) req (outcome.numRequeues (s.numRequeues agent req))),
    results := (req, outcome) :: s.results }

/-- One request of an agent. An error of a read ends the call, and controller-runtime may take the
event up again; the outcome of a write also depends on how often that has happened. -/
def stepAgent (s : ProposalRun ν) (agent : ν) : LearnOp → ProposalRun ν
  | .receive req ns =>
    match s.agents agent, gate req ns with
    | .idle, .inl outcome => s.finish agent req outcome
    | .idle, .inr proposalName =>
      if proposalName = s.key.name ∧ req.ns = s.key.ns then s.move agent (.checking req) else s
    | _, _ => s
  | .get read =>
    match s.agents agent, read with
    | .checking req, .failed => s.finish agent req .failed
    | .checking req, .behind n =>
      match s.proposal.read n with
      | some seen => s.move agent (.learning req (some seen))
      | none => s.move agent (.absent req)
    | _, _ => s
  | .listPolicies read =>
    match s.agents agent, read with
    | .absent req, .failed => s.finish agent req .failed
    | .absent req, .behind n =>
      if hasProposalBeenPromoted (s.readPolicies n) s.key.name then s.finish agent req .skipped
      else s.move agent (.learning req none)
    | _, _ => s
  | .getAgain read =>
    match s.agents agent, read with
    | .learning req _, .failed => s.finish agent req .failed
    | .learning req seen, .behind n =>
      match createOrUpdate req seen (s.proposal.read n) with
      | .keep => s.finish agent req .learned
      | write => s.move agent (.writing req write)
    | _, _ => s
  | .write answer =>
    match s.agents agent with
    | .writing req write =>
      let res := attempt answer write.carryOut s.proposal
      { s with proposal := res.state }.finish agent req
        (settle (s.numRequeues agent req) res.error)
    | _ => s

def stepUser (s : ProposalRun ν) : LabelOp → ProposalRun ν
  | .get _ .failed => { s with user := none }
  | .get overwrite (.behind n) =>
    match s.proposal.read n with
    | none => { s with user := none }
    | some v =>
      if v.value.hasPromotionLabel.isSome ∧ overwrite = false then { s with user := none }
      else { s with user := some v }
  | .update mode answer =>
    match s.user with
    | none => s
    | some v =>
      let res := attempt answer (Slot.update v.version (v.value.setPromotionLabel mode)) s.proposal
      { s with
        user := none, proposal := res.state,
        labelled := (if res.applied then res.state.current.toList else []) ++ s.labelled }

/-- One request of the controller. The policy is made from the version of the proposal that was
read, and the proposal is deleted whatever its version is by then. -/
def stepController (s : ProposalRun ν) : PromoteOp → ProposalRun ν
  | .get read =>
    match s.controller, read with
    | .idle, .behind n =>
      match s.proposal.read n with
      | none => s
      | some v => if v.value.deletionTimestamp.isSome then s else { s with controller := .got v }
    | _, _ => s
  | .hasProposalBeenPromoted read =>
    match s.controller, read with
    | .got _, .failed => { s with controller := .idle }
    | .got v, .behind n =>
      if Api.hasProposalBeenPromoted (s.readPolicies n) s.key.name then
        { s with controller := .deleting }
      else
        match v.value.hasPromotionLabel with
        | none => { s with controller := .idle }
        | some mode =>
          match (v.value.intoWorkloadPolicy s.key mode).setPromotedLabel s.key.name with
          | .error _ => { s with controller := .idle }
          | .ok policy => { s with controller := .creating v policy }
    | _, _ => s
  | .createPolicy answer =>
    match s.controller with
    | .creating v policy =>
      let res := attempt answer (createPolicyIn policy) s.policies
      let s :=
        if res.applied then { s.putPolicies res.state with created := (v, policy) :: s.created }
        else s
      { s with controller := if res.error = none then .deleting else .idle }
    | _ => s
  | .deleteProposal answer =>
    match s.controller with
    | .deleting =>
      { s with controller := .idle, proposal := (attempt answer Slot.delete s.proposal).state }
    | _ => s

def step (op : ProposalOp ν) (s : ProposalRun ν) : ProposalRun ν :=
  match op with
  | .agent agent op => s.stepAgent agent op
  | .user op => s.stepUser op
  | .controller op => s.stepController op
  | .addPolicy policy =>
    if policy.ns = s.key.ns then
      match createPolicyIn policy s.policies with
      | .error _ => s
      | .ok policies => s.putPolicies policies
    else s
  | .markDeleted now =>
    match s.proposal.current with
    | none => s
    | some v =>
      { s with proposal := s.proposal.put
                (some ⟨s.proposal.next, v.uid, { v.value with deletionTimestamp := some now }⟩) }
  | .vanish =>
    match s.proposal.delete with
    | .error _ => s
    | .ok proposal => { s with proposal }

end ProposalRun

end RuntimeEnforcer.Api
