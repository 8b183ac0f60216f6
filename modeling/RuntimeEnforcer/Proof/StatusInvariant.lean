import RuntimeEnforcer.Proof.Merging

/-!
# The representation invariant of a status

`StatusInv` holds of the empty status and is kept by every recomputation, whatever the nodes say,
whatever was scraped, and however the spec and the annotations were changed in between. The counter
is an `int64`; as long as it has not wrapped, an id that was allocated stays below it.
-/

set_option autoImplicit false

namespace RuntimeEnforcer.Api

open Lib

/-- The two lists are bounded, sorted, and tell their records apart. -/
structure StatusInv (s : WorkloadPolicyStatus) : Prop where
  violations_le : s.violations.length ≤ maxViolationRecords
  violations_sorted : NewestFirst ViolationRecord.lastObservedTimestamp s.violations
  acknowledged_le : s.acknowledgedViolations.length ≤ maxViolationRecords
  acknowledged_sorted : NewestFirst AcknowledgedViolationRecord.acknowledgedAt
    s.acknowledgedViolations
  records : Records s.violationCount s.violations
    (s.acknowledgedViolations.map AcknowledgedViolationRecord.violation)
  count_nonneg : 0 ≤ s.violationCount
  active : s.activeViolationCount = s.violations.length

theorem StatusInv.empty : StatusInv {} where
  violations_le := by decide
  violations_sorted := List.Pairwise.nil
  acknowledged_le := by decide
  acknowledged_sorted := List.Pairwise.nil
  records := Records.empty
  count_nonneg := Int.le_refl 0
  active := rfl

/-! ## One recomputation -/

theorem map_violation_acknowledgeAs (requests : GoMap Int AnnotationInfo) (now : Time)
    (l : List ViolationRecord) :
    (l.filterMap (acknowledgeAs requests now)).map AcknowledgedViolationRecord.violation =
      l.filter fun v => (requests.lookup v.id).isSome := by
  induction l with
  | nil => rfl
  | cons v l ih =>
    cases hv : requests.lookup v.id with
    | none => simp [acknowledgeAs, hv, ih]
    | some info => simp [acknowledgeAs, hv, ih]

theorem kept_append_acknowledged_perm (requests : GoMap Int AnnotationInfo) (now : Time)
    (l : List ViolationRecord) :
    ((l.filter fun v => (requests.lookup v.id).isNone) ++
      (l.filterMap (acknowledgeAs requests now)).map AcknowledgedViolationRecord.violation).Perm
      l := by
  rw [map_violation_acknowledgeAs]
  have hsplit := List.filter_append_perm (fun v => (requests.lookup v.id).isNone) l
  have hneg : (fun v : ViolationRecord => !(requests.lookup v.id).isNone) =
      fun v => (requests.lookup v.id).isSome := by
    funext v
    cases requests.lookup v.id <;> rfl
  rwa [hneg] at hsplit

theorem WorkloadPolicy.live_subperm (wp : WorkloadPolicy) (scraped : List ViolationRecord) :
    (wp.live scraped).Subperm (wp.status.mergeLoop scraped).violations :=
  List.filter_sublist.subperm.trans newest_subperm

theorem Records.recompute {wp wp' : WorkloadPolicy} {order : Order String String}
    {scraped : List ViolationRecord} {now : Time} {acks : List AcknowledgedViolationRecord}
    (h : Records (wp.status.mergeLoop scraped).violationCount
      (wp.status.mergeLoop scraped).violations
      (wp.status.acknowledgedViolations.map AcknowledgedViolationRecord.violation))
    (hrec : Recomputed wp order scraped now wp' acks) :
    Records wp'.status.violationCount wp'.status.violations
      (wp'.status.acknowledgedViolations.map AcknowledgedViolationRecord.violation) := by
  rw [hrec.count, hrec.violations]
  have hlive := h.subperm (wp.live_subperm scraped) (List.Subperm.refl _)
  have hmoved := hlive.move (kept_append_acknowledged_perm (wp.requests order) now _)
  rw [← hrec.acks, ← List.map_append] at hmoved
  refine hmoved.subperm (List.Subperm.refl _) ?_
  rw [hrec.acknowledgedViolations]
  split
  · exact ((List.sublist_append_left _ _).map _).subperm
  · have hnewest : (newest AcknowledgedViolationRecord.acknowledgedAt maxViolationRecords
        (wp.status.acknowledgedViolations ++ acks)).Subperm _ := newest_subperm
    obtain ⟨l, hperm, hsub⟩ := hnewest
    exact ⟨_, hperm.map _, hsub.map _⟩

/-- **One recomputation.** -/
theorem StatusInv.recompute {wp wp' : WorkloadPolicy} {order : Order String String}
    {scraped : List ViolationRecord} {now : Time} {acks : List AcknowledgedViolationRecord}
    (h : StatusInv wp.status) (hlt : wp.status.violationCount + scraped.length < 2 ^ 63)
    (hrec : Recomputed wp order scraped now wp' acks) :
    StatusInv wp'.status ∧
      wp'.status.violationCount = wp.status.violationCount + scraped.length := by
  have hmerge := wp.status.merges h.records.keys h.count_nonneg hlt
  have hcount : wp'.status.violationCount = wp.status.violationCount + scraped.length :=
    hrec.count.trans hmerge.count
  have hsub : wp'.status.violations.Sublist (newest ViolationRecord.lastObservedTimestamp
      maxViolationRecords (wp.status.mergeLoop scraped).violations) := by
    rw [hrec.violations]
    exact List.filter_sublist.trans List.filter_sublist
  refine ⟨⟨?_, ?_, ?_, ?_, ?_, ?_, hrec.active⟩, hcount⟩
  · exact hsub.length_le.trans newest_length_le
  · exact newest_sorted.sublist hsub
  · rw [hrec.acknowledgedViolations]
    split
    · exact h.acknowledged_le
    · exact newest_length_le
  · rw [hrec.acknowledgedViolations]
    split
    · exact h.acknowledged_sorted
    · exact newest_sorted
  · exact (hmerge.records _ h.records).recompute hrec
  · have := h.count_nonneg
    omega

/-! ## Whole histories -/

/-- A call of `RecomputeStatus`, with what was changed in the object since the last one. -/
structure RecomputeCall where
  mode : Mode
  rulesByContainer : GoMap ContainerName WorkloadPolicyRules
  generation : Int
  annotations : GoMap String String
  order : Order String String
  nodes : List PolicyNodeStatus
  scrapedViolations : List ViolationRecord
  now : Time

def RecomputeCall.edited (c : RecomputeCall) (wp : WorkloadPolicy) : WorkloadPolicy :=
  { wp with
    mode := c.mode
    rulesByContainer := c.rulesByContainer
    generation := c.generation
    annotations := c.annotations }

def RecomputeCall.apply (wp : WorkloadPolicy) (c : RecomputeCall) :
    Except StatusErr WorkloadPolicy :=
  ((c.edited wp).recomputeStatus c.order c.nodes c.scrapedViolations c.now).map Prod.fst

def events (calls : List RecomputeCall) : Nat :=
  (calls.map fun c => c.scrapedViolations.length).sum

theorem StatusInv.calls {calls : List RecomputeCall} {wp wp' : WorkloadPolicy}
    (h : StatusInv wp.status) (hlt : wp.status.violationCount + events calls < 2 ^ 63)
    (hcalls : calls.foldlM RecomputeCall.apply wp = .ok wp') : StatusInv wp'.status := by
  induction calls generalizing wp with
  | nil =>
    cases hcalls
    exact h
  | cons c calls ih =>
    rw [List.foldlM_cons] at hcalls
    rw [events, List.map_cons, List.sum_cons] at hlt
    cases hone : (c.edited wp).recomputeStatus c.order c.nodes c.scrapedViolations c.now with
    | error e => simp [RecomputeCall.apply, hone, Except.map, bind, Except.bind] at hcalls
    | ok res =>
      obtain ⟨wp₁, acks⟩ := res
      have happly : RecomputeCall.apply wp c = .ok wp₁ := by
        rw [RecomputeCall.apply, hone]
        rfl
      rw [happly] at hcalls
      -- the edits leave the status alone
      have hedited : StatusInv (c.edited wp).status := h
      obtain ⟨hinv, hcount⟩ := hedited.recompute
        (by show wp.status.violationCount + _ < _; omega) (recomputeStatus_ok hone)
      have hcount : wp₁.status.violationCount =
          wp.status.violationCount + c.scrapedViolations.length := hcount
      refine ih hinv ?_ hcalls
      rw [hcount, events]
      omega

/-- **The representation invariant.** Of a policy that starts with an empty status, after every
sequence of successful recomputations. -/
theorem statusInv_of_empty {wp wp' : WorkloadPolicy} (hempty : wp.status = {})
    {calls : List RecomputeCall} (hlt : events calls < 2 ^ 63)
    (hcalls : calls.foldlM RecomputeCall.apply wp = .ok wp') : StatusInv wp'.status := by
  have h : StatusInv wp.status := hempty ▸ StatusInv.empty
  refine h.calls ?_ hcalls
  rw [hempty]
  show (0 : Int) + _ < _
  omega

namespace Sample

def sealed : WorkloadPolicy where
  ns := RuntimeEnforcer.Sample.prod
  name := "web"
  name_ne := RuntimeEnforcer.Sample.web.name_ne
  mode := .protect
  rulesByContainer := AList.singleton "app" { allowed := [] }

def ran (executablePath : Bytes) (second : Int) : ViolationRecord where
  lastObservedTimestamp := second * 1000000000
  podName := "web-0"
  containerName := "app"
  executablePath := executablePath
  nodeName := "node-1"
  action := "protect"

/-- Two programs run, then the first again while the second is acknowledged. -/
def calls : List RecomputeCall :=
  [{ mode := .protect
     rulesByContainer := sealed.rulesByContainer
     generation := 1
     annotations := ∅
     order := .stored
     nodes := []
     scrapedViolations := [ran [1] 5, ran [2] 7]
     now := 8000000000 },
   { mode := .protect
     rulesByContainer := sealed.rulesByContainer
     generation := 1
     annotations := AList.singleton (violationAcknowledgePrefix ++ "1") "known"
     order := .stored
     nodes := []
     scrapedViolations := [ran [1] 9]
     now := 10000000000 }]

theorem statusInv_of_empty_calls : ∃ wp', calls.foldlM RecomputeCall.apply sealed = .ok wp' ∧
    wp'.status.violations.map ViolationRecord.id = [0] ∧
    wp'.status.acknowledgedViolations.map (·.violation.id) = [1] ∧ StatusInv wp'.status := by
  have hlt : events calls < 2 ^ 63 := by decide
  exact ⟨_, rfl, by decide +kernel, by decide +kernel, statusInv_of_empty rfl hlt rfl⟩

end Sample

end RuntimeEnforcer.Api
