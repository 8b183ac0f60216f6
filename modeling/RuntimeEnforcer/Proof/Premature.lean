import RuntimeEnforcer.Proof.LeftOver
import RuntimeEnforcer.Proof.NodeStatus

/-!
# Requests that come too early

Ids are given out by a counter, and a recomputation gives them out before it looks at the
annotations. A request for an id that was not given yet is kept until the counter has come to it,
and then acknowledges whatever violation gets the id, in the recomputation that first records it.

`serve` runs recomputations on a policy whose annotations are left alone. What they acknowledge was
stored from the start if and only if no annotation names an id that is still to be given
(`acknowledges_stored_iff`).
-/

set_option autoImplicit false

namespace RuntimeEnforcer.Api

open Lib

/-- What the calls acknowledge, when no one changes the annotations. -/
def serve (wp : WorkloadPolicy) :
    List RecomputeCall → Except StatusErr (List AcknowledgedViolationRecord)
  | [] => .ok []
  | c :: calls =>
    match (RecomputeCall.edited { c with annotations := wp.annotations } wp).recomputeStatus
      c.order c.nodes c.scrapedViolations c.now with
    | .error e => .error e
    | .ok (wp', acknowledged) => (serve wp' calls).map (acknowledged ++ ·)

theorem serve_cons {wp wp' : WorkloadPolicy} {c : RecomputeCall} {calls : List RecomputeCall}
    {acknowledged : List AcknowledgedViolationRecord}
    (h : (RecomputeCall.edited { c with annotations := wp.annotations } wp).recomputeStatus
      c.order c.nodes c.scrapedViolations c.now = .ok (wp', acknowledged)) :
    serve wp (c :: calls) = (serve wp' calls).map (acknowledged ++ ·) := by
  rw [serve, h]

/-- What the calls acknowledge was stored before the first of them, as long as the counter does not
wrap. -/
def AcknowledgesStored (wp : WorkloadPolicy) : Prop :=
  ∀ calls acks, wp.status.violationCount + events calls < 2 ^ 63 → serve wp calls = .ok acks →
    ∀ a ∈ acks, ∃ v ∈ wp.status.violations, v.id = a.id

/-- The annotation names an id that the counter has not given yet. -/
def Premature (wp : WorkloadPolicy) (key : String) : Prop :=
  ∃ id, acknowledgedID key = some id ∧ wp.status.violationCount ≤ id ∧ id < 2 ^ 63 - 1

/-! ## Without premature requests -/

section Calls

variable {start wp wp' : WorkloadPolicy} {order : Order String String}
  {scraped : List ViolationRecord} {now : Time} {acks : List AcknowledgedViolationRecord}

/-- Between `start` and `wp`, no request has come, and the ids that `start` had given are still
those of its own violations. -/
structure Follows (start wp : WorkloadPolicy) : Prop where
  annotations : ∀ key ∈ wp.annotations, key ∈ start.annotations
  count : start.status.violationCount ≤ wp.status.violationCount
  violations : ∀ r ∈ wp.status.violations, r.id < start.status.violationCount →
    ∃ v ∈ start.status.violations, v.id = r.id

theorem Follows.refl (wp : WorkloadPolicy) : Follows wp wp :=
  ⟨fun _ h => h, Int.le_refl _, fun r hr _ => ⟨r, hr, rfl⟩⟩

variable (h : Follows start wp) (hinv : StatusInv wp.status)
  (hlt : wp.status.violationCount + scraped.length < 2 ^ 63)

include h hinv hlt

theorem Follows.merged {q : ViolationRecord} (hq : q ∈ (wp.status.mergeLoop scraped).violations)
    (hid : q.id < start.status.violationCount) : ∃ v ∈ start.status.violations, v.id = q.id := by
  have hmerge := wp.status.merges hinv.records.keys hinv.count_nonneg hlt
  rcases hmerge.continued.new q hq with ⟨r, hr, hcont⟩ | hge
  · rw [hcont.id] at hid ⊢
    exact h.violations r hr hid
  · have hge : wp.status.violationCount ≤ q.id := hge
    have := h.count
    omega

/-- **One recomputation.** -/
theorem Follows.recompute (hrec : Recomputed wp order scraped now wp' acks) :
    Follows start wp' := by
  refine ⟨?_, ?_, ?_⟩
  · intro key hkey
    rw [hrec.annotations] at hkey
    exact h.annotations key (mem_of_mem_dropMet hkey)
  · have hcount := (hinv.recompute hlt hrec).2
    have := h.count
    omega
  · intro r hr hid
    rw [hrec.violations] at hr
    have hlive := List.mem_of_mem_filter hr
    exact h.merged hinv hlt ((wp.live_subperm scraped).subset hlive) hid

theorem Follows.acknowledged (hgiven : ∀ key ∈ start.annotations, ¬ Premature start key)
    (hrec : Recomputed wp order scraped now wp' acks) :
    ∀ a ∈ acks, ∃ v ∈ start.status.violations, v.id = a.id := by
  intro a ha
  rw [hrec.acks] at ha
  obtain ⟨q, hlive, hack⟩ := List.mem_filterMap.mp ha
  obtain ⟨info, hreq, rfl⟩ := Option.map_eq_some_iff.mp hack
  obtain ⟨hkey, hid⟩ := WorkloadPolicy.requests_spec hreq
  have hq := (wp.live_subperm scraped).subset hlive
  -- the record's id is below the counter, which has not wrapped
  have hmerge := wp.status.merges hinv.records.keys hinv.count_nonneg hlt
  have hsane := (hmerge.records _ hinv.records).each q (List.mem_append_left _ hq)
  have hbelow : q.id < wp.status.violationCount + scraped.length := hmerge.count ▸ hsane.id_lt
  refine h.merged hinv hlt hq ?_
  by_contra hge
  have hge : start.status.violationCount ≤ q.id := not_lt.mp hge
  exact hgiven _ (h.annotations _ hkey) ⟨q.id, hid, hge, by omega⟩

end Calls

theorem Follows.serve {start wp : WorkloadPolicy} {calls : List RecomputeCall}
    {acks : List AcknowledgedViolationRecord} (h : Follows start wp) (hinv : StatusInv wp.status)
    (hlt : wp.status.violationCount + events calls < 2 ^ 63)
    (hgiven : ∀ key ∈ start.annotations, ¬ Premature start key)
    (hserve : serve wp calls = .ok acks) :
    ∀ a ∈ acks, ∃ v ∈ start.status.violations, v.id = a.id := by
  induction calls generalizing wp acks with
  | nil =>
    cases hserve
    simp
  | cons c calls ih =>
    rw [events, List.map_cons, List.sum_cons] at hlt
    cases hone : (RecomputeCall.edited { c with annotations := wp.annotations } wp).recomputeStatus
        c.order c.nodes c.scrapedViolations c.now with
    | error e =>
      rw [Api.serve, hone] at hserve
      cases hserve
    | ok out =>
      obtain ⟨wp₁, acks₁⟩ := out
      rw [serve_cons hone] at hserve
      cases hrest : Api.serve wp₁ calls with
      | error e =>
        simp only [hrest] at hserve
        cases hserve
      | ok acks₂ =>
        simp only [hrest, Except.map, Except.ok.injEq] at hserve
        subst hserve
        have hrec := recomputeStatus_ok hone
        -- the edits touch neither the annotations nor the status
        have hedited : Follows start (RecomputeCall.edited
            { c with annotations := wp.annotations } wp) := ⟨h.annotations, h.count, h.violations⟩
        have hinvEdited : StatusInv (RecomputeCall.edited
            { c with annotations := wp.annotations } wp).status := hinv
        have hlt₁ : wp.status.violationCount + c.scrapedViolations.length < 2 ^ 63 := by omega
        obtain ⟨hinv₁, hcount⟩ := hinvEdited.recompute hlt₁ hrec
        have hcount : wp₁.status.violationCount =
            wp.status.violationCount + c.scrapedViolations.length := hcount
        intro a ha
        rcases List.mem_append.mp ha with ha | ha
        · exact hedited.acknowledged hinv hlt₁ hgiven hrec a ha
        · refine ih (hedited.recompute hinv hlt₁ hrec) hinv₁ ?_ hrest a ha
          rw [hcount, events]
          omega

/-! ## With a premature request -/

/-- A violation by a program whose path has `n` bytes. -/
def probe (n : Nat) (time : Time) : ViolationRecord where
  lastObservedTimestamp := time
  podName := ""
  containerName := ""
  executablePath := List.replicate n 0
  nodeName := ""
  action := ""

/-- There are a path longer and a time later than those of any of the records. -/
theorem exists_beyond (l : List ViolationRecord) :
    ∃ n : Nat, ∃ time : Time, ∀ r ∈ l, r.executablePath.length < n ∧
      r.lastObservedTimestamp < time := by
  induction l with
  | nil => exact ⟨0, 0, by simp⟩
  | cons r l ih =>
    obtain ⟨n, time, h⟩ := ih
    refine ⟨max n (r.executablePath.length + 1), max time (r.lastObservedTimestamp + 1), ?_⟩
    intro r' hr'
    rcases List.mem_cons.mp hr' with rfl | hr'
    · exact ⟨by omega, lt_of_lt_of_le (Int.lt_succ _) (le_max_right _ _)⟩
    · obtain ⟨h₁, h₂⟩ := h r' hr'
      exact ⟨by omega, lt_of_lt_of_le h₂ (le_max_left _ _)⟩

theorem key_ne_probe {r : ViolationRecord} {n : Nat} {time : Time}
    (h : r.executablePath.length ≠ n) : r.key ≠ (probe n time).key := by
  intro hkey
  have hpaths : r.executablePath = List.replicate n 0 :=
    congrArg ViolationRecordKey.executablePath hkey
  rw [hpaths, List.length_replicate] at h
  exact h rfl

/-- Merging older probes with a longer path leaves all records older than `time`, and none with a
path of length `n`. -/
theorem older_mergeLoop {s : WorkloadPolicyStatus} (hinv : StatusInv s) {n k : Nat} {time : Time}
    (hbeyond : ∀ r ∈ s.violations, r.executablePath.length < n ∧ r.lastObservedTimestamp < time) :
    ∀ r ∈ (s.mergeLoop (List.replicate k (probe (n + 1) (time - 1)))).violations,
      r.executablePath.length ≠ n ∧ r.lastObservedTimestamp < time := by
  have holder : (probe (n + 1) (time - 1)).lastObservedTimestamp < time :=
    Int.sub_one_lt_of_le (le_refl time)
  refine MergeState.forall_foldl (indexByKey_indexes hinv.records.keys) ?_ ?_ ?_
  · intro r hr
    exact ⟨Nat.ne_of_lt (hbeyond r hr).1, (hbeyond r hr).2⟩
  · intro v hv count
    obtain rfl := List.eq_of_mem_replicate hv
    refine ⟨?_, holder⟩
    show (List.replicate (n + 1) (0 : UInt8)).length ≠ n
    rw [List.length_replicate]
    omega
  · intro v hv r hr
    obtain rfl := List.eq_of_mem_replicate hv
    refine ⟨hr.1, ?_⟩
    show (if _ then _ else _) < time
    split
    · exact holder
    · exact hr.2

theorem exists_scraped {s : WorkloadPolicyStatus} (hinv : StatusInv s) {id : Int}
    (hge : s.violationCount ≤ id) (hlt : id < 2 ^ 63 - 1) :
    ∃ scraped : List ViolationRecord, s.violationCount + scraped.length = id + 1 ∧
      ∃ r ∈ newest ViolationRecord.lastObservedTimestamp maxViolationRecords
        (s.mergeLoop scraped).violations, r.id = id := by
  obtain ⟨n, time, hbeyond⟩ := exists_beyond s.violations
  let fillers := List.replicate (id - s.violationCount).toNat (probe (n + 1) (time - 1))
  have hlen : s.violationCount + fillers.length = id := by
    rw [List.length_replicate]
    omega
  have hothers : ∀ r ∈ (s.mergeLoop fillers).violations,
      r.executablePath.length ≠ n ∧ r.lastObservedTimestamp < time := older_mergeLoop hinv hbeyond
  have hcount : (s.mergeLoop fillers).violationCount = id := by
    rw [← hlen]
    exact MergeState.foldl_count (by
      show s.violationCount + (fillers.length : Int) < 2 ^ 63
      omega)
  have hlast : (s.mergeLoop (fillers ++ [probe n time])).violations =
      (s.mergeLoop fillers).violations ++ [(probe n time).firstSeen id] := by
    have hindexed : MergeState.Indexed ⟨s.violations, indexByKey s.violations, s.violationCount⟩ :=
      indexByKey_indexes hinv.records.keys
    rw [← hcount]
    exact MergeState.foldl_push hindexed fun r hr => key_ne_probe (hothers r hr).1
  refine ⟨fillers ++ [probe n time], ?_, (probe n time).firstSeen id, ?_, rfl⟩
  · rw [List.length_append, List.length_singleton]
    omega
  · rw [hlast]
    exact mem_newest_of_lt (by decide) fun r hr => (hothers r hr).2

/-- A request for an id that is still to be given acknowledges the violation that gets it, in the
recomputation that records it. -/
theorem premature_acknowledged {wp : WorkloadPolicy} (hinv : StatusInv wp.status) {key : String}
    (hkey : key ∈ wp.annotations) (hpre : Premature wp key) : ¬ AcknowledgesStored wp := by
  intro hstored
  obtain ⟨id, hid, hge, hlt⟩ := hpre
  obtain ⟨scraped, hlen, r, hr, hrid⟩ := exists_scraped hinv hge hlt
  let call : RecomputeCall :=
    { mode := wp.mode
      rulesByContainer := ∅
      generation := wp.generation
      annotations := wp.annotations
      order := .stored
      nodes := []
      scrapedViolations := scraped
      now := 0 }
  obtain ⟨newPolicy, acks, hok⟩ :=
    recomputeStatus_succeeds (call.edited wp) .stored scraped 0
      (show ∀ n ∈ ([] : List PolicyNodeStatus), n.code ≠ .unknown by simp)
  have hrec := recomputeStatus_ok hok
  have hserve : serve wp [call] = .ok (acks ++ []) := serve_cons hok
  -- no rule clears the record, and the annotation asks for it
  have hlive : r ∈ (call.edited wp).live scraped := by
    refine List.mem_filter.mpr ⟨hr, ?_⟩
    have hclears : (call.edited wp).clears r = false := by
      simp [WorkloadPolicy.clears, RecomputeCall.edited, call]
    simp [hclears]
  have hreq : (((call.edited wp).requests .stored).lookup r.id).isSome := by
    obtain ⟨reason, hreason⟩ := Option.isSome_iff_exists.mp (AList.lookup_isSome.mpr hkey)
    have hmem : (⟨key, reason⟩ : Entry String String) ∈ Order.stored.range 0 wp.annotations :=
      (Order.stored.mem_range 0).mpr hreason
    rw [hrid]
    exact acknowledges_isSome hmem hid
  obtain ⟨info, hinfo⟩ := Option.isSome_iff_exists.mp hreq
  have hack : ({ violation := r, reason := info.reason, acknowledgedAt := 0 } :
      AcknowledgedViolationRecord) ∈ acks ++ [] := by
    rw [List.append_nil, hrec.acks]
    exact List.mem_filterMap.mpr ⟨r, hlive, by simp [acknowledgeAs, hinfo]⟩
  have hevents : wp.status.violationCount + events [call] < 2 ^ 63 := by
    show wp.status.violationCount + ((scraped.length + 0 : Nat) : Int) < 2 ^ 63
    omega
  obtain ⟨v, hv, hvid⟩ := hstored [call] _ hevents hserve _ hack
  have hbelow := (hinv.records.each v (List.mem_append_left _ hv)).id_lt
  have hvid : v.id = r.id := hvid
  omega

/-- **What is acknowledged was there**, if and only if no annotation names an id that is still to be
given. -/
theorem acknowledges_stored_iff {wp : WorkloadPolicy} (hinv : StatusInv wp.status) :
    AcknowledgesStored wp ↔ ∀ key ∈ wp.annotations, ¬ Premature wp key := by
  constructor
  · intro hstored key hkey hpre
    exact premature_acknowledged hinv hkey hpre hstored
  · intro hgiven calls acks hlt hserve
    exact (Follows.refl wp).serve hinv hlt hgiven hserve

namespace Sample

def early (id : String) : WorkloadPolicy :=
  { sealed with annotations := AList.singleton (request id) "known" }

def runs (executablePath : Bytes) : RecomputeCall where
  mode := .protect
  rulesByContainer := sealed.rulesByContainer
  generation := 1
  annotations := ∅
  order := .stored
  nodes := []
  scrapedViolations := [ran executablePath 5]
  now := 8000000000

/-- The ids of what the calls acknowledge. -/
def served (wp : WorkloadPolicy) (calls : List RecomputeCall) : Option (List Int) :=
  (serve wp calls).toOption.map fun acks => acks.map AcknowledgedViolationRecord.id

/-- The first violation is acknowledged as it is recorded; the second in the call after the one that
kept the request. -/
theorem fresh_acknowledged :
    (early "0").status.violations = [] ∧ (early "1").status.violations = [] ∧
      served (early "0") [runs [1]] = some [0] ∧ served (early "1") [runs [1]] = some [] ∧
      served (early "1") [runs [1], runs [2]] = some [1] :=
  ⟨rfl, rfl, by decide +kernel, by decide +kernel, by decide +kernel⟩

theorem early_acknowledges_stored_iff :
    AcknowledgesStored (early "0") ↔ ∀ key ∈ (early "0").annotations, ¬ Premature (early "0") key :=
  acknowledges_stored_iff StatusInv.empty

end Sample

end RuntimeEnforcer.Api
