import RuntimeEnforcer.Controller.Patch
import RuntimeEnforcer.Lib.Run

/-!
# One policy under the controller

The life of one policy as the API server and the controller see it. Users edit its spec and its
annotations at any time. The controller takes turns: it reads the policy (`List`, from a cache that
may be behind), computes a new one and patches the status, then patches the metadata
(`processWorkloadPolicy`). The turns are steps of their own, so anything users do can fall between
them; what the agents delivered to a turn is an input of it.

The cache never goes back: `older` holds the versions it may still return, from the last one it
returned on. `history`, `acks` and `logs` are history variables: every version that was stored, the
entries that status patches have appended to the stored `acknowledgedViolations`, and the
acknowledgements that were logged.

`StatusSync` has the same turns for many policies and reads them as they are stored. Here the read
may be behind, and that is the point: a status patch is computed from the version that was read and
laid over the one that is stored, and between the two lie the edits of users and, with a cache that
lags, earlier patches of the controller itself.
-/

set_option autoImplicit false

namespace RuntimeEnforcer.Api

open Lib

/-- Where the controller is with the policy: between two syncs; after the read of the policy, while
the agents are being asked; or between the patch of the status and that of the metadata. -/
inductive Turn
  | idle
  | listed (wp : WorkloadPolicy)
  | patched (wp newPolicy : WorkloadPolicy)

/-- The policy as it is stored, what the cache may still return, latest first, and the controller's
turn. -/
structure PolicyRun where
  stored : WorkloadPolicy
  older : List WorkloadPolicy := []
  turn : Turn := .idle
  history : List WorkloadPolicy
  acks : List AcknowledgedViolationRecord := []
  logs : List AcknowledgedViolationRecord := []

def PolicyRun.start (wp : WorkloadPolicy) : PolicyRun := { stored := wp, history := [wp] }

/-- What a turn of the controller finds: the order of the loop over the annotations, the nodes, the
scraped violations, and the clock. -/
structure TurnInput where
  order : Order String String
  nodes : List PolicyNodeStatus
  scrapedViolations : List ViolationRecord
  now : Time

/-- A user writes the spec and the annotations (`edit`), or the controller goes on with its turn. A
`list` returns a version that is `lag` writes behind, unless a later one was returned before, and
`sync` may return before it comes to the policy (`abort`). `processWorkloadPolicy` is two steps,
since users write between its two patches. -/
inductive PolicyOp
  | edit (mode : Mode) (rulesByContainer : GoMap ContainerName WorkloadPolicyRules)
    (generation : Int) (annotations : GoMap String String)
  | list (lag : Nat)
  | abort
  | patchStatus (input : TurnInput) (res : PatchResult)
  | patchMetadata (res : PatchResult)

namespace PolicyRun

def write (s : PolicyRun) (wp : WorkloadPolicy) : PolicyRun :=
  { s with stored := wp, older := s.stored :: s.older, history := wp :: s.history }

def behind (s : PolicyRun) (lag : Nat) : Nat := min lag s.older.length

def read (s : PolicyRun) (lag : Nat) : WorkloadPolicy :=
  (s.stored :: s.older).getD (s.behind lag) s.stored

/-- A failed request ends the turn, also if the server has carried it out: the next turn starts from
a new read. An acknowledgement is logged only if its patch is known to have succeeded. -/
def step : PolicyOp → PolicyRun → PolicyRun
  | .edit mode rulesByContainer generation annotations, s =>
    s.write { s.stored with mode, rulesByContainer, generation, annotations }
  | .list lag, s =>
    match s.turn with
    | .idle => { s with turn := .listed (s.read lag), older := s.older.take (s.behind lag) }
    | _ => s
  | .abort, s =>
    match s.turn with
    | .listed _ => { s with turn := .idle }
    | _ => s
  | .patchStatus i res, s =>
    match s.turn with
    | .listed wp =>
      match wp.recomputeStatus i.order i.nodes i.scrapedViolations i.now with
      | .error _ => { s with turn := .idle }
      | .ok (newPolicy, acknowledged) =>
        let s :=
          if res.applied then
            { s.write (Api.patchStatus wp newPolicy s.stored) with acks := s.acks ++ acknowledged }
          else s
        match res with
        | .ok => { s with turn := .patched wp newPolicy, logs := s.logs ++ acknowledged }
        | _ => { s with turn := .idle }
    | _ => s
  | .patchMetadata res, s =>
    match s.turn with
    | .patched wp newPolicy =>
      let s := if res.applied then s.write (Api.patchMetadata wp newPolicy s.stored) else s
      { s with turn := .idle }
    | _ => s

end PolicyRun

/-- How many violations a step brings. -/
def PolicyOp.scraped : PolicyOp → Nat
  | .patchStatus i _ => i.scrapedViolations.length
  | _ => 0

def scrapedIn (ops : List PolicyOp) : Nat := (ops.map PolicyOp.scraped).sum

end RuntimeEnforcer.Api
