import RuntimeEnforcer.Controller.ScrapeRun
import RuntimeEnforcer.Proof.Accounting
import RuntimeEnforcer.Proof.BufferLog
import RuntimeEnforcer.Proof.NodeStatus
import RuntimeEnforcer.Proof.StatusInvariant
import Mathlib.Data.Fintype.Basic

/-!
# When a violation was first observed

A record is stamped with the time of the event that creates it, the first of its key that the merge
comes to. A drain answers newest first, so of two violations of one key in one answer the later one
comes first: the record is stamped with it and then counts the earlier one. Two agents can do the
same to each other, since the key does not name the node.

`Earliest` is what the stamp should be, and a round of the merge keeps it as long as no event is
older than the stamp of the record it comes to (`InOrder`). Whether that is so is decided long
before the merge, where a sync takes an answer. `BringsEarliest` is the condition, on what the
agents hold at that moment: an answer that brings the first sighting of a key brings one that no
agent holds an older one of. What the agents record later is later, and what is of a known key may
come in any order.

The proof follows the events from the buffers to the status. `Timely` compares the stamps, and for a
key without a record the first event the sync holds, with every event that may yet be counted. It is
kept by a record (`Int64Buffer.mem_held_afterRecord`), by a drain (`lookup_addScraped`) and by a
merge (`stamp_cases`).
-/

set_option autoImplicit false

namespace RuntimeEnforcer.Api

open Lib

/-- The record is stamped no later than any event it counts. -/
structure ViolationRecord.Earliest (r : ViolationRecord) (events : List ViolationRecord)
    (i : Nat) : Prop extends r.CountsFrom events i where
  stamp : ∀ v ∈ sightings events i r.key, r.firstObservedTimestamp ≤ v.lastObservedTimestamp

/-- An event that is no older than the stamp. -/
def ViolationRecord.Takes (r v : ViolationRecord) : Prop :=
  r.firstObservedTimestamp ≤ v.lastObservedTimestamp

theorem earliest_ledger :
    Ledger (fun events i r => r.Earliest events i) ViolationRecord.Takes where
  created := by
    intro events v
    refine ⟨countsFrom_created events v, ?_⟩
    rw [ViolationRecord.firstSeen_key, sightings_last, ViolationRecord.firstSeen_first]
    intro u hu
    rw [List.mem_singleton.mp hu]
  again := by
    intro events i r v h hkey hv
    have hlt := h.toCountsFrom.lt
    refine ⟨countsFrom_ledger.again v h.toCountsFrom hkey trivial, ?_⟩
    rw [ViolationRecord.seenAgain_key, sightings_push_of_eq (Nat.le_of_lt hlt) hkey.symm,
      ViolationRecord.seenAgain_first]
    intro u hu
    rcases List.mem_append.mp hu with hu | hu
    · exact h.stamp u hu
    · rw [List.mem_singleton.mp hu]
      exact hv
  other := by
    intro events i r v h hkey
    refine ⟨countsFrom_ledger.other v h.toCountsFrom hkey, ?_⟩
    rw [sightings_push_of_ne (Nat.le_of_lt h.toCountsFrom.lt) (Ne.symm hkey)]
    exact h.stamp

theorem ViolationRecord.Earliest.stored {r : ViolationRecord} {events : List ViolationRecord}
    {i : Nat} (h : r.Earliest events i) : r.stored.Earliest events i := by
  refine ⟨⟨h.creator, h.id, h.occurrences⟩, fun v hv => ?_⟩
  exact (Time.stored_le r.firstObservedTimestamp).trans (h.stamp v hv)

namespace ScrapeRun

variable {ν : Type}

/-- Every record of the status is stamped with its earliest event, or earlier. -/
def EarliestStamps (s : ScrapeRun ν) : Prop :=
  ∀ r ∈ s.policy.status.violations, ∃ i, r.Earliest s.merged i

/-! ## One merge -/

variable {batch before seen : List ViolationRecord}
  {R : List ViolationRecord → Nat → ViolationRecord → Prop} {c : ViolationRecord} {s : ScrapeRun ν}
  {acks : List AcknowledgedViolationRecord} {order : Order String String}
  {newPolicy : WorkloadPolicy} {now : Time}

/-- The first event of a key. -/
def firstOf (batch : List ViolationRecord) (k : ViolationRecordKey) : Option ViolationRecord :=
  batch.find? fun u => u.key = k

theorem firstOf_append (batch batch' : List ViolationRecord) (k : ViolationRecordKey) :
    firstOf (batch ++ batch') k = (firstOf batch k).or (firstOf batch' k) := List.find?_append

theorem firstOf_mem {k : ViolationRecordKey} {e : ViolationRecord} (h : firstOf batch k = some e) :
    e ∈ batch ∧ e.key = k :=
  ⟨List.mem_of_find?_eq_some h, by simpa using List.find?_some h⟩

/-- A batch whose events come to their records in order: none is older than the stamp of the record
of its key, and of a key that has no record none is older than the first in the batch. -/
structure InOrder (stored batch : List ViolationRecord) : Prop where
  known : ∀ r ∈ stored, ∀ v ∈ batch, v.key = r.key → r.Takes v
  fresh : ∀ v ∈ batch, (∀ r ∈ stored, r.key ≠ v.key) →
    ∀ e ∈ firstOf batch v.key, e.lastObservedTimestamp ≤ v.lastObservedTimestamp

theorem firstOf_of_createdAt {prev : List ViolationRecord} {j : Nat}
    (h : CreatedAt R before prev seen c j) (hseen : seen <+: batch) :
    ∃ e, firstOf batch c.key = some e ∧ c.firstObservedTimestamp = e.lastObservedTimestamp := by
  obtain ⟨e, he, hkey, hstamp⟩ := h.creator
  obtain ⟨post, rfl⟩ := hseen
  refine ⟨e, ?_, hstamp⟩
  rw [firstOf, List.find?_eq_some_iff_append]
  refine ⟨by simpa using hkey, seen.take j, seen.drop (j + 1) ++ post, ?_, ?_⟩
  · obtain ⟨hlt, rfl⟩ := List.getElem?_eq_some_iff.mp he
    rw [← List.cons_append, ← List.append_assoc, List.getElem_cons_drop,
      List.take_append_drop]
  · intro u hu
    simpa using h.first u hu

/-- Where a candidate has its stamp from: the record it goes on from, or the first event of its key
in the batch. -/
theorem stamp_cases {stored cands : List ViolationRecord}
    (hcands : Candidates R before stored seen cands) (hseen : seen <+: batch) (hc : c ∈ cands) :
    (∃ r ∈ stored, c.key = r.key ∧ c.firstObservedTimestamp = r.firstObservedTimestamp) ∨
      (∀ r ∈ stored, r.key ≠ c.key) ∧
        ∃ e ∈ firstOf batch c.key, c.firstObservedTimestamp = e.lastObservedTimestamp := by
  rcases hcands.each c hc with ⟨r, hr, hcont, _⟩ | ⟨j, hj⟩
  · exact .inl ⟨r, hr, hcont.key, hcont.first⟩
  · exact .inr ⟨hj.fresh, firstOf_of_createdAt hj hseen⟩

/-- In a batch that is in order, an event is no older than the stamp of the record it comes to. -/
theorem InOrder.takes {stored cands : List ViolationRecord} {v : ViolationRecord}
    (h : InOrder stored batch) (hseen : seen ++ [v] <+: batch)
    (hcands : Candidates R before stored seen cands) (hc : c ∈ cands) (hkey : c.key = v.key) :
    c.Takes v := by
  have hv : v ∈ batch := hseen.subset (by simp)
  rw [ViolationRecord.Takes]
  rcases stamp_cases hcands ((List.prefix_append _ _).trans hseen) hc with
    ⟨r, hr, hrkey, hstamp⟩ | ⟨hfresh, e, he, hstamp⟩
  · rw [hstamp]
    exact h.known r hr v hv (hkey.symm.trans hrkey)
  · rw [hstamp]
    rw [hkey] at he hfresh
    exact h.fresh v hv hfresh e he

/-- The status counts what was merged, with the earliest stamps. -/
structure Stamped (s : ScrapeRun ν) : Prop where
  count : s.policy.status.violationCount = toInt64 s.merged.length
  keys : (s.policy.status.violations.map ViolationRecord.key).Nodup
  stamps : s.EarliestStamps

theorem stamped_start (policy : WorkloadPolicy) : (start policy : ScrapeRun ν).Stamped := by
  have hzero : toInt64 0 = 0 := toInt64_of_lt (by omega)
  exact ⟨hzero.symm, List.nodup_nil, fun r hr => absurd hr List.not_mem_nil⟩

theorem Stamped.of_same {s' : ScrapeRun ν} (h : s.Stamped)
    (hstatus : s'.policy.status = s.policy.status) (hmerged : s'.merged = s.merged) :
    s'.Stamped := by
  refine ⟨?_, ?_, ?_⟩
  · rw [hstatus, hmerged]
    exact h.count
  · rw [hstatus]
    exact h.keys
  · unfold EarliestStamps
    rw [hstatus, hmerged]
    exact h.stamps

theorem Stamped.candidates (h : s.Stamped) (horder : InOrder s.policy.status.violations s.batch) :
    Candidates (fun events i r => r.Earliest events i) s.merged s.policy.status.violations s.batch
      (s.policy.status.mergeLoop s.batch).violations :=
  earliest_ledger.candidates h.count h.keys h.stamps
    fun _ _ hseen _ hc _ hmem hkey => horder.takes hseen hc hmem hkey

theorem subperm_of_recomputed {wp : WorkloadPolicy}
    (hrec : Recomputed wp order batch now newPolicy acks) :
    newPolicy.status.violations.Subperm (wp.status.mergeLoop batch).violations := by
  rw [hrec.violations]
  exact List.filter_sublist.subperm.trans (List.filter_sublist.subperm.trans newest_subperm)

theorem Stamped.recomputed (h : s.Stamped)
    (hrec : Recomputed s.policy order s.batch now newPolicy acks)
    (horder : InOrder s.policy.status.violations s.batch) :
    Stamped { s with
      violationsByPolicy := ∅
      policy := patchStatus s.policy newPolicy s.policy
      merged := s.merged ++ s.batch } := by
  have hcands := h.candidates horder
  have hsub := subperm_of_recomputed hrec
  have hviol : (patchStatus s.policy newPolicy s.policy).status.violations =
      newPolicy.status.violations.map ViolationRecord.stored := patchStatus_violations rfl
  refine ⟨?_, ?_, fun r hr => ?_⟩
  · show (patchStatus s.policy newPolicy s.policy).status.violationCount = _
    rw [patchStatus_count rfl, hrec.count]
    exact count_mergeLoop h.count s.batch
  · show ((patchStatus s.policy newPolicy s.policy).status.violations.map _).Nodup
    rw [hviol, List.map_map]
    exact hcands.keys_of_kept hsub
  · have hr : r ∈ (patchStatus s.policy newPolicy s.policy).status.violations := hr
    rw [hviol] at hr
    obtain ⟨r₀, hr₀, rfl⟩ := List.mem_map.mp hr
    obtain ⟨i, hi⟩ := hcands.index (hsub.subset hr₀)
    exact ⟨i, hi.stored⟩

/-! ## From the buffers to the merge -/

variable {node : ν}

/-- Agents record in chronological order, on all nodes together. -/
def Chronological (s : ScrapeRun ν) : ScrapeOp ν → Prop
  | .record _ rec => ∀ r ∈ s.recorded, r.timestamp ≤ rec.timestamp
  | _ => True

/-- The policy has no record of the key, and the sync holds no violation of it. -/
def Unseen (s : ScrapeRun ν) (k : ViolationRecordKey) : Prop :=
  (∀ r ∈ s.policy.status.violations, r.key ≠ k) ∧ ∀ v ∈ s.batch, v.key ≠ k

/-- Where an answer brings the first violations of a key, no agent holds an older one of that key,
the agent that answers included: it has seen the key at one time only since it was last drained. -/
def BringsEarliest (s : ScrapeRun ν) : ScrapeOp ν → Prop
  | .scrape node .delivered =>
    ∀ v ∈ s.waitingAt node, s.Unseen v.key → ∀ node', ∀ u ∈ s.waitingAt node', u.key = v.key →
      v.lastObservedTimestamp ≤ u.lastObservedTimestamp
  | _ => True

instance (s : ScrapeRun ν) : (op : ScrapeOp ν) → Decidable (s.Chronological op)
  | .record _ rec => inferInstanceAs (Decidable (∀ r ∈ s.recorded, r.timestamp ≤ rec.timestamp))
  | .edit .. | .scrape .. | .process .. | .abort => .isTrue trivial

instance (s : ScrapeRun ν) (k : ViolationRecordKey) : Decidable (s.Unseen k) :=
  inferInstanceAs (Decidable (_ ∧ _))

instance [Fintype ν] (s : ScrapeRun ν) : (op : ScrapeOp ν) → Decidable (s.BringsEarliest op)
  | .scrape node .delivered =>
    inferInstanceAs (Decidable (∀ v ∈ s.waitingAt node, s.Unseen v.key → ∀ node',
      ∀ u ∈ s.waitingAt node', u.key = v.key →
        v.lastObservedTimestamp ≤ u.lastObservedTimestamp))
  | .scrape _ .lost | .scrape _ .unreached | .record .. | .edit .. | .process .. | .abort =>
    .isTrue trivial

/-- The policy may yet count the event: the sync holds it, or an agent does. -/
def Pending (s : ScrapeRun ν) (v : ViolationRecord) : Prop :=
  v ∈ s.batch ∨ ∃ node, v ∈ s.waitingAt node

/-- **The invariant.** No pending event is older than the stamp of its record, or than the first
event of its key in a sync that finds no record. `past` and `recorded` tie both to what the agents
have recorded, which nothing that is recorded later precedes. -/
structure Timely (s : ScrapeRun ν) : Prop where
  known : ∀ r ∈ s.policy.status.violations, ∀ v, s.Pending v → v.key = r.key → r.Takes v
  fresh : ∀ k, (∀ r ∈ s.policy.status.violations, r.key ≠ k) → ∀ e ∈ firstOf s.batch k,
    ∀ v, s.Pending v → v.key = k → e.lastObservedTimestamp ≤ v.lastObservedTimestamp
  past : ∀ r ∈ s.policy.status.violations, ∃ u ∈ s.recorded, r.firstObservedTimestamp ≤ u.timestamp
  recorded : ∀ v, s.Pending v → ∃ u ∈ s.recorded, v.lastObservedTimestamp = u.timestamp

theorem timely_start (policy : WorkloadPolicy) : (start policy : ScrapeRun ν).Timely := by
  have hnone : ∀ v, ¬ (start policy : ScrapeRun ν).Pending v := by
    rintro v (hbatch | ⟨node, hwait⟩)
    · exact absurd hbatch (by simp [batch, start])
    · simp [waitingAt, start, Violationbuf.Int64Buffer.held_new] at hwait
  refine ⟨?_, ?_, ?_, ?_⟩
  · intro r _ v hv
    exact absurd hv (hnone v)
  · intro k _ e _ v hv
    exact absurd hv (hnone v)
  · intro r hr
    exact absurd hr List.not_mem_nil
  · intro v hv
    exact absurd hv (hnone v)

namespace Timely

variable {s s' : ScrapeRun ν}

theorem inOrder (h : s.Timely) : InOrder s.policy.status.violations s.batch where
  known r hr v hv hkey := h.known r hr v (.inl hv) hkey
  fresh v hv hnone e he := h.fresh v.key hnone e he v (.inl hv) rfl

theorem mono (h : s.Timely) (hstatus : s'.policy.status = s.policy.status)
    (hrecorded : s'.recorded = s.recorded) (hpending : ∀ v, s'.Pending v → s.Pending v)
    (hbatch : ∀ k, ∀ e ∈ firstOf s'.batch k, e ∈ firstOf s.batch k) : s'.Timely where
  known r hr v hv := h.known r (hstatus ▸ hr) v (hpending v hv)
  fresh k hnone e he v hv := h.fresh k (hstatus ▸ hnone) e (hbatch k e he) v (hpending v hv)
  past r hr := hrecorded ▸ h.past r (hstatus ▸ hr)
  recorded v hv := hrecorded ▸ h.recorded v (hpending v hv)

theorem ends (h : s.Timely) : Timely { s with violationsByPolicy := ∅ } := by
  refine h.mono rfl rfl ?_ ?_
  · rintro v (hbatch | hwait)
    · exact absurd hbatch (by simp [batch])
    · exact .inr hwait
  · intro k e he
    exact absurd he (by simp [batch, firstOf])

/-- **The merge.** A new stamp is that of a stored record, or the time of the first event of its
key, rounded down. -/
theorem recomputed (h : s.Timely) (hs : s.Stamped)
    (hrec : Recomputed s.policy order s.batch now newPolicy acks) :
    Timely { s with
      violationsByPolicy := ∅
      policy := patchStatus s.policy newPolicy s.policy
      merged := s.merged ++ s.batch } := by
  have hpending : ∀ v, Pending { s with
      violationsByPolicy := ∅
      policy := patchStatus s.policy newPolicy s.policy
      merged := s.merged ++ s.batch } v → s.Pending v := by
    rintro v (hbatch | hwait)
    · exact absurd hbatch (by simp [batch])
    · exact .inr hwait
  have hstored : ∀ r ∈ (patchStatus s.policy newPolicy s.policy).status.violations,
      (∀ v, s.Pending v → v.key = r.key → r.Takes v) ∧
        ∃ u ∈ s.recorded, r.firstObservedTimestamp ≤ u.timestamp := by
    intro r hr
    rw [patchStatus_violations rfl] at hr
    obtain ⟨c, hc, rfl⟩ := List.mem_map.mp hr
    have hround : c.stored.firstObservedTimestamp ≤ c.firstObservedTimestamp :=
      Time.stored_le c.firstObservedTimestamp
    have hmem := (subperm_of_recomputed hrec).subset hc
    rcases stamp_cases (hs.candidates h.inOrder) List.prefix_rfl hmem with
      ⟨r, hr, hkey, hstamp⟩ | ⟨hnone, e, he, hstamp⟩
    · rw [hstamp] at hround
      obtain ⟨u, hu, hle⟩ := h.past r hr
      exact ⟨fun v hv hvkey => hround.trans (h.known r hr v hv (hvkey.trans hkey)),
        u, hu, hround.trans hle⟩
    · rw [hstamp] at hround
      obtain ⟨u, hu, heq⟩ := h.recorded e (.inl (firstOf_mem he).1)
      exact ⟨fun v hv hvkey => hround.trans (h.fresh c.key hnone e he v hv hvkey),
        u, hu, hround.trans (le_of_eq heq)⟩
  refine ⟨?_, ?_, ?_, ?_⟩
  · intro r hr v hv
    exact (hstored r hr).1 v (hpending v hv)
  · intro k _ e he
    exact absurd he (by simp [batch, firstOf])
  · intro r hr
    exact (hstored r hr).2
  · intro v hv
    exact h.recorded v (hpending v hv)

variable [DecidableEq ν]

/-- **A record** is later than everything before it. -/
theorem record (h : s.Timely) {rec : Violationbuf.ViolationRecord}
    (hchron : s.Chronological (.record node rec)) : (s.step (.record node rec)).Timely := by
  have hpending : ∀ v, (s.step (.record node rec)).Pending v →
      s.Pending v ∨ v.lastObservedTimestamp = rec.timestamp := by
    rintro v (hbatch | ⟨node', hwait⟩)
    · exact .inl (.inl hbatch)
    · obtain ⟨r, hr, rfl⟩ := List.mem_map.mp hwait
      obtain ⟨hheld, hpolicy⟩ := List.mem_filter.mp hr
      have hheld : r ∈
          (Function.update s.agents node ((s.agents node).afterRecord rec) node').held := hheld
      by_cases hnode : node' = node
      · subst hnode
        rw [Function.update_self] at hheld
        rcases Violationbuf.Int64Buffer.mem_held_afterRecord hheld with rfl | hold
        · exact .inr rfl
        · exact .inl (.inr ⟨node', List.mem_map_of_mem (List.mem_filter.mpr ⟨hold, hpolicy⟩)⟩)
      · rw [Function.update_of_ne hnode] at hheld
        exact .inl (.inr ⟨node', List.mem_map_of_mem (List.mem_filter.mpr ⟨hheld, hpolicy⟩)⟩)
  refine ⟨?_, ?_, ?_, ?_⟩
  · intro r hr v hv hkey
    rcases hpending v hv with hold | hnew
    · exact h.known r hr v hold hkey
    · obtain ⟨u, hu, hle⟩ := h.past r hr
      exact hle.trans (hnew ▸ hchron u hu)
  · intro k hnone e he v hv hkey
    rcases hpending v hv with hold | hnew
    · exact h.fresh k hnone e he v hold hkey
    · obtain ⟨u, hu, heq⟩ := h.recorded e (.inl (firstOf_mem he).1)
      rw [heq, hnew]
      exact hchron u hu
  · intro r hr
    obtain ⟨u, hu, hle⟩ := h.past r hr
    exact ⟨u, List.mem_cons_of_mem rec hu, hle⟩
  · intro v hv
    rcases hpending v hv with hold | hnew
    · obtain ⟨u, hu, heq⟩ := h.recorded v hold
      exact ⟨u, List.mem_cons_of_mem rec hu, heq⟩
    · exact ⟨rec, List.mem_cons_self, hnew⟩

end Timely

section Scrape

variable [DecidableEq ν] {s : ScrapeRun ν}

theorem waitingAt_scrape {node' : ν} {res : ScrapeResult} {v : ViolationRecord}
    (hv : v ∈ (s.scrape node res).waitingAt node') : v ∈ s.waitingAt node' := by
  have hdrained : ∀ rec ∈ (Function.update s.agents node (s.agents node).afterDrain node').held,
      rec ∈ (s.agents node').held := by
    intro rec hrec
    by_cases hnode : node' = node
    · subst hnode
      rw [Function.update_self, Violationbuf.Int64Buffer.held_afterDrain] at hrec
      exact absurd hrec List.not_mem_nil
    · rwa [Function.update_of_ne hnode] at hrec
  cases res with
  | unreached => exact hv
  | _ =>
    obtain ⟨rec, hrec, rfl⟩ := List.mem_map.mp hv
    obtain ⟨hheld, hpolicy⟩ := List.mem_filter.mp hrec
    exact List.mem_map_of_mem (List.mem_filter.mpr ⟨hdrained rec hheld, hpolicy⟩)

theorem batch_delivered (s : ScrapeRun ν) (node : ν) :
    (s.scrape node .delivered).batch = s.batch ++ s.waitingAt node := by
  show ((addScraped s.violationsByPolicy _).lookup _).getD [] = _
  rw [lookup_addScraped, List.filter_map, List.map_map]
  rfl

theorem Timely.scrape (h : s.Timely) {res : ScrapeResult}
    (hfirst : s.BringsEarliest (.scrape node res)) : (s.scrape node res).Timely := by
  cases res with
  | unreached => exact h
  | lost =>
    refine h.mono rfl rfl ?_ fun k e he => he
    rintro v (hbatch | ⟨node', hwait⟩)
    · exact .inl hbatch
    · exact .inr ⟨node', waitingAt_scrape hwait⟩
  | delivered =>
    have hpending : ∀ v, (s.scrape node .delivered).Pending v → s.Pending v := by
      rintro v (hbatch | ⟨node', hwait⟩)
      · rw [batch_delivered] at hbatch
        rcases List.mem_append.mp hbatch with hold | hnew
        · exact .inl hold
        · exact .inr ⟨node, hnew⟩
      · exact .inr ⟨node', waitingAt_scrape hwait⟩
    refine ⟨fun r hr v hv => h.known r hr v (hpending v hv), ?_, h.past,
      fun v hv => h.recorded v (hpending v hv)⟩
    intro k hnone e he v hv hkey
    rw [batch_delivered, firstOf_append] at he
    cases hold : firstOf s.batch k with
    | some e' =>
      -- the sync had an event of the key before
      obtain rfl : e' = e := by simpa [hold] using he
      exact h.fresh k hnone e' hold v (hpending v hv) hkey
    | none =>
      -- the answer brings the first one
      have he : firstOf (s.waitingAt node) k = some e := by simpa [hold] using he
      obtain ⟨hmem, hekey⟩ := firstOf_mem he
      have hout : ∀ u ∈ s.batch, u.key ≠ e.key := by
        intro u hu
        rw [hekey]
        simpa using List.find?_eq_none.mp hold u hu
      rcases hpending v hv with hbatch | ⟨node', hwait⟩
      · exact absurd (hkey.trans hekey.symm) (hout v hbatch)
      · exact hfirst e hmem ⟨hekey ▸ hnone, hout⟩ node' v hwait (hkey.trans hekey.symm)

end Scrape

/-! ## Whole runs -/

theorem Stamped.process (h : s.Stamped) (ht : s.Timely) (order : Order String String)
    (nodes : List PolicyNodeStatus) (now : Time) (res : PatchResult) :
    (s.process order nodes now res).Stamped ∧ (s.process order nodes now res).Timely := by
  unfold ScrapeRun.process
  cases hrec : s.policy.recomputeStatus order nodes s.batch now with
  | error e => exact ⟨h.of_same rfl rfl, ht.ends⟩
  | ok result =>
    obtain ⟨newPolicy, acks⟩ := result
    have hrec := recomputeStatus_ok hrec
    dsimp only
    split
    · exact ⟨h.recomputed hrec ht.inOrder, ht.recomputed h hrec⟩
    · exact ⟨h.of_same rfl rfl, ht.ends⟩

theorem Stamped.step [DecidableEq ν] (s : ScrapeRun ν) (op : ScrapeOp ν)
    (h : s.Stamped ∧ s.Timely) (hop : s.Chronological op ∧ s.BringsEarliest op) :
    (ScrapeRun.step op s).Stamped ∧ (ScrapeRun.step op s).Timely := by
  cases op with
  | record node rec => exact ⟨h.1.of_same rfl rfl, h.2.record hop.1⟩
  | edit mode rulesByContainer generation annotations =>
    exact ⟨h.1.of_same rfl rfl, h.2.mono rfl rfl (fun v hv => hv) fun k e he => he⟩
  | scrape node res =>
    refine ⟨?_, h.2.scrape hop.2⟩
    cases res <;> exact h.1.of_same rfl rfl
  | process order nodes now res => exact h.1.process h.2 order nodes now res
  | abort => exact ⟨h.1.of_same rfl rfl, h.2.ends⟩

/-- **Stamps are earliest as long as the first answer with a key brings the earliest sighting**: in
every run of agents that record in chronological order, in every state it reaches. -/
theorem earliestStamps_of_bringsEarliest [DecidableEq ν] {policy : WorkloadPolicy}
    {ops : List (ScrapeOp ν)} (hchron : Along step Chronological ops (start policy))
    (hfirst : Along step BringsEarliest ops (start policy)) :
    (run step ops (start policy : ScrapeRun ν)).EarliestStamps :=
  (run_inv (I := fun s : ScrapeRun ν => s.Stamped ∧ s.Timely) Stamped.step
    ⟨stamped_start policy, timely_start policy⟩ (hchron.and hfirst)).1.stamps

namespace Sample

/-- One program, run at some second. -/
def ranAt (second : Int) : Violationbuf.ViolationRecord where
  timestamp := second * 1000000000
  policyName := "web"
  ns := "prod"
  podName := "web-0"
  containerName := "app"
  exePath := [1]
  nodeName := "node-1"
  action := "protect"

def sync (second : Int) : List (ScrapeOp Unit) :=
  [.scrape () .delivered, .process .stored [] (second * 1000000000) .ok]

/-- The program is run twice before a sync. -/
def twice : List (ScrapeOp Unit) := [.record () (ranAt 1), .record () (ranAt 2)] ++ sync 3

/-- The record that comes of it. -/
def stampedLate : ViolationRecord where
  id := 0
  lastObservedTimestamp := 2000000000
  occurrences := 2
  firstObservedTimestamp := 2000000000
  podName := "web-0"
  containerName := "app"
  executablePath := [1]
  nodeName := "node-1"
  action := "protect"

/-- The record counts the run of second 1 and says that it was first observed in second 2. -/
theorem twice_stamped_late :
    (run step twice (start Api.Sample.sealed)).policy.status.violations = [stampedLate] ∧
    (run step twice (start Api.Sample.sealed)).merged.map (fun v => v.lastObservedTimestamp) =
      [2000000000, 1000000000] ∧
    ¬ (run step twice (start Api.Sample.sealed)).EarliestStamps := by
  have hviol : (run step twice (start Api.Sample.sealed)).policy.status.violations
      = [stampedLate] := by
    decide +kernel
  refine ⟨hviol, by decide +kernel, fun h => ?_⟩
  obtain ⟨i, hi⟩ := h stampedLate (by rw [hviol]; exact List.mem_singleton_self _)
  have hlt : i < 2 := hi.toCountsFrom.lt
  have hid : toInt64 i = i := toInt64_of_lt (by omega)
  -- its id says that it was created by the event that was merged first
  obtain rfl : i = 0 := by
    have : (0 : Int) = i := hi.id.trans hid
    omega
  have hearlier : ∀ v ∈
      sightings (run step twice (start Api.Sample.sealed)).merged 0 stampedLate.key,
      (2000000000 : Int) ≤ v.lastObservedTimestamp := hi.stamp
  revert hearlier
  decide +kernel

/-- A sync after the first run, and one after two more. The second sync is given the later of the
two first, which does no harm: the record is there. -/
def syncedBetween : List (ScrapeOp Unit) :=
  [.record () (ranAt 1)] ++ sync 2 ++ [.record () (ranAt 3), .record () (ranAt 4)] ++ sync 5

theorem earliestStamps_syncedBetween :
    Along step BringsEarliest syncedBetween (start Api.Sample.sealed) ∧
    ((run step syncedBetween (start Api.Sample.sealed)).policy.status.violations.map fun r =>
      (r.firstObservedTimestamp, r.occurrences)) = [(1000000000, 3)] ∧
    (run step syncedBetween (start Api.Sample.sealed)).EarliestStamps := by
  have hchron : Along step Chronological syncedBetween (start Api.Sample.sealed) := by
    decide +kernel
  have hfirst : Along step BringsEarliest syncedBetween (start Api.Sample.sealed) := by
    decide +kernel
  exact ⟨hfirst, by decide +kernel, earliestStamps_of_bringsEarliest hchron hfirst⟩

end Sample

end ScrapeRun

end RuntimeEnforcer.Api
