import RuntimeEnforcer.Controller.StatusSync
import RuntimeEnforcer.Proof.NodeLists

/-!
# A sync never fails on what the nodes say

`RecomputeStatus` refuses a node whose code is unknown, and checks that its counters add up. They
always do (`processPolicyNodeStatus_ok`), and `getNodeStatusByPolicy` gives every node a
code, so a sync never stops there.
-/

set_option autoImplicit false

namespace RuntimeEnforcer.Api

open Lib

theorem recomputeStatus_succeeds (wp : WorkloadPolicy) (order : Order String String)
    {nodes : List PolicyNodeStatus} (scraped : List ViolationRecord) (now : Time)
    (h : ∀ n ∈ nodes, n.code ≠ .unknown) :
    ∃ newPolicy acks, wp.recomputeStatus order nodes scraped now = .ok (newPolicy, acks) := by
  unfold WorkloadPolicy.recomputeStatus
  rw [processPolicyNodeStatus_ok wp.status wp.status now h]
  exact ⟨_, _, rfl⟩

/-! ## Every node is given a code -/

theorem policyNodeStatus_code {mode : Mode} {status : Option RuntimeEnforcer.PolicyStatus}
    {code : PolicyCode} {message : String}
    (h : policyNodeStatus mode status = .ok (code, message)) : code ≠ .unknown := by
  unfold policyNodeStatus at h
  split at h
  · cases h
    decide
  · split at h
    · split at h <;> cases h <;> decide
    · cases h
      decide
    · cases h
    · cases h

theorem nodeStatusOf_code (nodeName : String) (report : NodeReport) (wp : WorkloadPolicy) :
    (nodeStatusOf nodeName report wp).code ≠ .unknown := by
  have hmissing : PolicyCode.missing ≠ .unknown := by decide
  have hfailed : PolicyCode.failed ≠ .unknown := by decide
  unfold nodeStatusOf
  cases report with
  | noClient => exact hmissing
  | failed => exact hmissing
  | policies statuses =>
    dsimp only
    split
    · exact hmissing
    · split
      · next hstatus => exact policyNodeStatus_code hstatus
      · exact hfailed

/-- No list of the map holds an unknown code. -/
def KnownCodes (m : GoMap NamespacedPolicyName (List PolicyNodeStatus)) : Prop :=
  ∀ name, ∀ n ∈ (m.lookup name).getD [], n.code ≠ .unknown

theorem lookup_appendAt {κ α : Type} [DecidableEq κ] (m : GoMap κ (List α)) (k k' : κ) (x : α) :
    ((appendAt m k' x).lookup k).getD [] =
      (m.lookup k).getD [] ++ if k = k' then [x] else [] := by
  rw [appendAt, GoMap.lookup_insert_eq]
  split
  · next h =>
    subst h
    rfl
  · simp

theorem lookup_addScraped (m : GoMap NamespacedPolicyName (List ViolationRecord))
    (answer : List Violationbuf.ScrapedViolation) (k : NamespacedPolicyName) :
    ((addScraped m answer).lookup k).getD [] =
      (m.lookup k).getD [] ++ (answer.filter fun v => v.policyName = k).map toRecord := by
  induction answer generalizing m with
  | nil => simp [addScraped]
  | cons v answer ih =>
    have hcons : addScraped m (v :: answer) =
        addScraped (appendAt m v.policyName (toRecord v)) answer := rfl
    rw [hcons, ih, lookup_appendAt, List.append_assoc]
    by_cases hk : v.policyName = k
    · simp [hk]
    · have hk' : k ≠ v.policyName := fun h => hk h.symm
      simp [hk, hk']

theorem KnownCodes.appendAt {m : GoMap NamespacedPolicyName (List PolicyNodeStatus)}
    (h : KnownCodes m) (k : NamespacedPolicyName) {n : PolicyNodeStatus}
    (hn : n.code ≠ .unknown) : KnownCodes (appendAt m k n) := by
  intro name n' hn'
  rw [lookup_appendAt] at hn'
  rcases List.mem_append.mp hn' with hold | hnew
  · exact h name n' hold
  · split at hnew
    · rw [List.mem_singleton.mp hnew]
      exact hn
    · cases hnew

theorem knownCodes_getNodeStatusByPolicy (reports : List (String × NodeReport))
    (policies : List WorkloadPolicy) : KnownCodes (getNodeStatusByPolicy reports policies) := by
  have hstart : KnownCodes (policies.foldl (fun m wp => m.insert wp.namespacedName []) ∅) := by
    refine List.foldlRecOn policies _ (fun name n hn => ?_) fun m hm wp _ name n hn => ?_
    · simp at hn
    · rw [GoMap.lookup_insert_eq] at hn
      split at hn
      · simp at hn
      · exact hm name n hn
  refine List.foldlRecOn reports _ hstart fun m hm report _ => ?_
  refine List.foldlRecOn policies _ hm fun m hm wp _ => ?_
  exact hm.appendAt _ (nodeStatusOf_code report.1 report.2 wp)

end RuntimeEnforcer.Api
