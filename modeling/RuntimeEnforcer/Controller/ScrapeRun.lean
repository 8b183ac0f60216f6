import RuntimeEnforcer.Controller.StatusSync

/-!
# From an agent's buffer to a record

The way of the violations of one policy: agents record them, a sync drains the agents' buffers one
by one (`ScrapeViolations`), sorts the answers by policy (`getViolationsByPolicy`) and merges those
of the policy into its status (`processWorkloadPolicy`). Between any two of these the spec and the
annotations may change, and every call may fail.

`Controller.StatusSync` has all the policies and all the stages of a sync; here there is one policy,
which is always stored, and a sync ends where the policy is processed. The buffers are those with
the agent's own `int64` position, which can wrap: the call that then panics ends the agent, and the
one that is started in its place has an empty buffer (`Int64Buffer.afterRecord`, `afterDrain`). To
the controller such a call is one that has failed, and it goes on without an answer.

`recorded` and `merged` are history variables: what the agents have recorded, newest first, and the
events behind the stored status, in the order in which they were merged.
-/

set_option autoImplicit false

namespace RuntimeEnforcer.Api

open Lib
open Violationbuf (Int64Buffer)

structure ScrapeRun (ν : Type) where
  agents : ν → Int64Buffer := fun _ => .new
  violationsByPolicy : GoMap NamespacedPolicyName (List ViolationRecord) := ∅
  policy : WorkloadPolicy
  recorded : List Violationbuf.ViolationRecord := []
  merged : List ViolationRecord := []

/-- An agent records a violation, the policy is edited (by a user, or by the patch of its metadata),
a node is scraped, and the policy is processed, unless the sync ends before it comes to it. -/
inductive ScrapeOp (ν : Type)
  | record (node : ν) (rec : Violationbuf.ViolationRecord)
  | edit (mode : Mode) (rulesByContainer : GoMap ContainerName WorkloadPolicyRules)
    (generation : Int) (annotations : GoMap String String)
  | scrape (node : ν) (res : ScrapeResult)
  | process (order : Order String String) (nodes : List PolicyNodeStatus) (now : Time)
    (res : PatchResult)
  | abort

namespace ScrapeRun

variable {ν : Type}

/-- A policy that was just created, and agents with nothing to tell. -/
def start (policy : WorkloadPolicy) : ScrapeRun ν := { policy := { policy with status := {} } }

def batch (s : ScrapeRun ν) : List ViolationRecord :=
  (s.violationsByPolicy.lookup s.policy.namespacedName).getD []

/-- What a drain of the node would bring to the policy. -/
def waitingAt (s : ScrapeRun ν) (node : ν) : List ViolationRecord :=
  ((s.agents node).held.filter fun rec => rec.policy = s.policy.namespacedName).map fun rec =>
    toRecord rec.toProto

/-- `processWorkloadPolicy`, up to its status patch. -/
def process (s : ScrapeRun ν) (order : Order String String) (nodes : List PolicyNodeStatus)
    (now : Time) (res : PatchResult) : ScrapeRun ν :=
  match s.policy.recomputeStatus order nodes s.batch now with
  | .error _ => { s with violationsByPolicy := ∅ }
  | .ok (newPolicy, _) =>
    if res.applied then
      { s with
        violationsByPolicy := ∅
        policy := patchStatus s.policy newPolicy s.policy
        merged := s.merged ++ s.batch }
    else { s with violationsByPolicy := ∅ }

def scrape [DecidableEq ν] (s : ScrapeRun ν) (node : ν) (res : ScrapeResult) : ScrapeRun ν :=
  let b := s.agents node
  match res with
  | .delivered =>
    { s with
      agents := Function.update s.agents node b.afterDrain
      violationsByPolicy :=
        addScraped s.violationsByPolicy (b.held.map Violationbuf.ViolationRecord.toProto) }
  | .lost => { s with agents := Function.update s.agents node b.afterDrain }
  | .unreached => s

def step [DecidableEq ν] : ScrapeOp ν → ScrapeRun ν → ScrapeRun ν
  | .record node rec, s =>
    { s with
      agents := Function.update s.agents node ((s.agents node).afterRecord rec)
      recorded := rec :: s.recorded }
  | .edit mode rulesByContainer generation annotations, s =>
    { s with policy := { s.policy with mode, rulesByContainer, generation, annotations } }
  | .scrape node res, s => s.scrape node res
  | .process order nodes now res, s => s.process order nodes now res
  | .abort, s => { s with violationsByPolicy := ∅ }

end ScrapeRun

end RuntimeEnforcer.Api
