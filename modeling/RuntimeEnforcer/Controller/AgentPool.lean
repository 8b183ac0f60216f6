import RuntimeEnforcer.Controller.StatusSync

/-!
# The connections of the controller

`internal/grpcexporter/agent_client_pool.go`, and the way a sync uses it
(`internal/controller/workloadpolicystatus_sync.go`, `workloadpolicystatus_helpers.go`). The pool
has an entry for each node with an agent pod; the entry is a client, or nil where no client could be
made or the last call has failed. The map that `UpdatePool` returns is the pool's own, so what
`MarkStaleAgentClient` does to it in the middle of a loop is seen by everybody.

A sync goes through the pool twice, for the statuses and for the violations, and brings it up to
date before each: pods that are new, or whose entry is nil, are dialled, and the entries of nodes
without an agent pod are closed and removed. An entry that is not nil is kept as it is, also if the
pod behind it is another one by now.

A connection is its number in the order they were made. Which listing, dial or call fails is an
input. `closed` and `calls` are history variables: every `Close`, and every call with the
connections that were closed by then.
-/

set_option autoImplicit false

namespace RuntimeEnforcer.Grpcexporter

open Lib Api
open Violationbuf (ScrapedViolation)

structure AgentPod where
  nodeName : String
  dials : Bool

abbrev Conn := Nat

/-- `AgentClientPool`. A client is a connection, by its number, and `next` is the number of the next
one; the entry of a node whose agent is not to be called is nil. -/
structure AgentClientPool where
  clients : GoMap String (Option Conn) := ∅
  next : Conn := 0
  closed : List Conn := []
  calls : List (Conn × List Conn) := []

namespace AgentClientPool

def newClient (p : AgentClientPool) (nodeName : String) : AgentClientPool :=
  { p with clients := p.clients.insert nodeName (some p.next), next := p.next + 1 }

/-- A dial that fails leaves an entry: the node is known, and its agent is not to be called. -/
def getOrCreateClient (p : AgentClientPool) (pod : AgentPod) : AgentClientPool :=
  match p.clients.lookup pod.nodeName with
  | some (some _) => p
  | _ =>
    if pod.dials then p.newClient pod.nodeName
    else { p with clients := p.clients.insert pod.nodeName none }

def close (p : AgentClientPool) (client : Option Conn) : AgentClientPool :=
  { p with closed := client.toList ++ p.closed }

def dropStale (activeNodes : List String) (p : AgentClientPool) (e : Entry String (Option Conn)) :
    AgentClientPool :=
  if e.1 ∈ activeNodes then p
  else { p.close e.2 with clients := p.clients.erase e.1 }

def updatePool (order : Order String (Option Conn)) (pods : List AgentPod) (p : AgentClientPool) :
    AgentClientPool :=
  let p := pods.foldl getOrCreateClient p
  (order.range 0 p.clients).foldl (dropStale (pods.map AgentPod.nodeName)) p

def markStaleAgentClient (p : AgentClientPool) (nodeName : String) : AgentClientPool :=
  match p.clients.lookup nodeName with
  | none => p
  | some client => { p.close client with clients := p.clients.insert nodeName none }

/-- What came of a node. `noClient` is a nil client. -/
inductive Reply (α : Type)
  | noClient
  | failed
  | answer (a : α)

variable {α : Type}

/-- One round of a loop over the clients: the node is called, and if that fails its client is marked
stale. `answers` is what a node would answer. -/
def ask (answers : String → Option α) (s : AgentClientPool × List (String × Reply α))
    (e : Entry String (Option Conn)) : AgentClientPool × List (String × Reply α) :=
  match e.2 with
  | none => (s.1, s.2 ++ [(e.1, .noClient)])
  | some conn =>
    let p := { s.1 with calls := (conn, s.1.closed) :: s.1.calls }
    match answers e.1 with
    | none => (p.markStaleAgentClient e.1, s.2 ++ [(e.1, .failed)])
    | some a => (p, s.2 ++ [(e.1, .answer a)])

/-- A loop over the clients. A node's entry is changed only after the loop has come to it. -/
def askAll (order : Order String (Option Conn)) (answers : String → Option α)
    (p : AgentClientPool) : AgentClientPool × List (String × Reply α) :=
  (order.range 0 p.clients).foldl (ask answers) (p, [])

end AgentClientPool

open AgentClientPool (Reply)

/-- What `getNodeStatusByPolicy` makes of a node's reply. -/
def toReport : Reply (GoMap NamespacedPolicyName (Option RuntimeEnforcer.PolicyStatus)) → NodeReport
  | .noClient => .noClient
  | .failed => .failed
  | .answer statuses => .policies statuses

/-- What `getViolationsByPolicy` makes of a node's reply. -/
def toViolations : Reply (List ScrapedViolation) → List ScrapedViolation
  | .answer violations => violations
  | _ => []

/-- What a sync finds: a listing is missing where it has failed, and `order` has the orders of the
four loops over the clients. -/
structure SyncInput where
  policies : List Api.WorkloadPolicy
  firstPods : Option (List AgentPod)
  statuses : String → Option (GoMap NamespacedPolicyName (Option RuntimeEnforcer.PolicyStatus))
  secondPods : Option (List AgentPod)
  violations : String → Option (List ScrapedViolation)
  order : Nat → Order String (Option Conn)

/-- What a sync has collected when it comes to process the policies. -/
structure Collected where
  nodeStatusByPolicy : GoMap NamespacedPolicyName (List PolicyNodeStatus)
  violationsByPolicy : GoMap NamespacedPolicyName (List ViolationRecord)

def getViolationsByPolicy (replies : List (String × Reply (List ScrapedViolation))) :
    GoMap NamespacedPolicyName (List ViolationRecord) :=
  replies.foldl (fun m r => addScraped m (toViolations r.2)) ∅

/-- `sync`, up to the loop over the policies; nothing when it returns before. -/
def collect (i : SyncInput) (p : AgentClientPool) : AgentClientPool × Option Collected :=
  if i.policies = [] then (p, none)
  else
    match i.firstPods with
    | none => (p, none)
    | some pods =>
      let first := (p.updatePool (i.order 0) pods).askAll (i.order 1) i.statuses
      match i.secondPods with
      | none => (first.1, none)
      | some pods =>
        let second := (first.1.updatePool (i.order 2) pods).askAll (i.order 3) i.violations
        (second.1, some
          { nodeStatusByPolicy :=
              getNodeStatusByPolicy (first.2.map fun r => (r.1, toReport r.2)) i.policies
            violationsByPolicy := getViolationsByPolicy second.2 })

end RuntimeEnforcer.Grpcexporter
