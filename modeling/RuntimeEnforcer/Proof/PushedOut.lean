import RuntimeEnforcer.Proof.Accounting
import RuntimeEnforcer.Proof.NodeStatus
import RuntimeEnforcer.Proof.StatusInvariant

/-!
# What pushes a violation out

A recomputation merges the scraped violations, cuts the list to its hundred newest, and only then
clears what the spec allows and moves away what is acknowledged. So a record that still matters can
be cut off for records that are gone a moment later, and the list ends short without it.

Which records are cut off can be said before the merge: the keys that the status and the batch
observe, each with its latest time, have their places newest first, and the first hundred stay.
`keepsWhatMatters_iff` is the exact condition under which a list that ends short has lost nothing
that matters. `Described` says that the records the merge makes are those of the keys.
-/

set_option autoImplicit false

namespace RuntimeEnforcer.Api

open Lib

/-- The latest time of a key. -/
def lastSeen (observed : List ViolationRecord) (k : ViolationRecordKey) : Time :=
  (((observed.filter fun v => v.key = k).map ViolationRecord.lastObservedTimestamp).max?).getD 0

namespace WorkloadPolicy

/-- The records of the status and the violations of the batch. -/
def observed (wp : WorkloadPolicy) (scraped : List ViolationRecord) : List ViolationRecord :=
  wp.status.violations ++ scraped

/-- The id of a key: the one its record has, or the next one at its first event. -/
def idOf (wp : WorkloadPolicy) (scraped : List ViolationRecord) (k : ViolationRecordKey) : Int :=
  match wp.status.violations.find? fun r => r.key = k with
  | some r => r.id
  | none => int64Succ^[(scraped.map ViolationRecord.key).idxOf k] wp.status.violationCount

/-- What was observed is neither resolved by the spec nor acknowledged by an annotation. -/
def matters (wp : WorkloadPolicy) (order : Order String String) (scraped : List ViolationRecord)
    (v : ViolationRecord) : Bool :=
  !wp.clears v && ((wp.requests order).lookup (wp.idOf scraped v.key)).isNone

/-- The place of what was observed among the keys, newest first. -/
def place (wp : WorkloadPolicy) (scraped : List ViolationRecord) (v : ViolationRecord) : Nat :=
  ahead (lastSeen (wp.observed scraped))
    (firsts ((wp.observed scraped).map ViolationRecord.key)) v.key

end WorkloadPolicy

/-- If the list ends short, everything observed that matters has its record in it. -/
def KeepsWhatMatters (wp : WorkloadPolicy) (order : Order String String)
    (scraped : List ViolationRecord) (wp' : WorkloadPolicy) : Prop :=
  wp'.status.violations.length < maxViolationRecords →
    ∀ v ∈ wp.observed scraped, wp.matters order scraped v = true →
      ∃ r ∈ wp'.status.violations, r.key = v.key ∧ r.id = wp.idOf scraped v.key

/-! ## The latest times -/

section Latest

variable {l : List ViolationRecord} {v : ViolationRecord} {k : ViolationRecordKey}

theorem lastSeen_push_of_ne (h : v.key ≠ k) : lastSeen (l ++ [v]) k = lastSeen l k := by
  rw [lastSeen, List.filter_append, List.filter_cons_of_neg (by simpa using h), List.filter_nil,
    List.append_nil, lastSeen]

theorem lastSeen_push_new (h : v.key ∉ l.map ViolationRecord.key) :
    lastSeen (l ++ [v]) v.key = v.lastObservedTimestamp := by
  have hnone : (l.filter fun u => u.key = v.key) = [] := by
    refine List.filter_eq_nil_iff.mpr fun u hu heq => h ?_
    exact of_decide_eq_true heq ▸ List.mem_map_of_mem hu
  rw [lastSeen, List.filter_append, hnone]
  simp

theorem lastSeen_push_again (h : v.key ∈ l.map ViolationRecord.key) :
    lastSeen (l ++ [v]) v.key = max (lastSeen l v.key) v.lastObservedTimestamp := by
  obtain ⟨u, hu, hkey⟩ := List.mem_map.mp h
  have hsome : u ∈ l.filter fun u => u.key = v.key := by simp [hu, hkey]
  rw [lastSeen, lastSeen, List.filter_append, List.filter_cons_of_pos (by simp), List.filter_nil]
  cases hfilter : l.filter fun u => u.key = v.key with
  | nil =>
    rw [hfilter] at hsome
    cases hsome
  | cons w ws =>
    simp only [List.cons_append, List.map_cons, List.map_append, List.map_nil, List.max?_cons',
      List.foldl_concat, Option.getD_some]

theorem lastSeen_of_nodup (hkeys : (l.map ViolationRecord.key).Nodup) (hv : v ∈ l) :
    lastSeen l v.key = v.lastObservedTimestamp := by
  induction l using List.reverseRecOn with
  | nil => cases hv
  | append_singleton l u ih =>
    rw [← List.concat_eq_append, List.map_concat, List.nodup_concat] at hkeys
    obtain ⟨hnew, hkeys⟩ := hkeys
    rcases List.mem_append.mp hv with hv | hv
    · rw [lastSeen_push_of_ne fun heq => hnew (heq ▸ List.mem_map_of_mem hv), ih hkeys hv]
    · rw [List.mem_singleton.mp hv, lastSeen_push_new hnew]

end Latest

/-! ## The records of the keys -/

section Ids

variable {wp : WorkloadPolicy} {scraped : List ViolationRecord} {k : ViolationRecordKey}

theorem idOf_record (hkeys : (wp.status.violations.map ViolationRecord.key).Nodup)
    {r : ViolationRecord} (hr : r ∈ wp.status.violations) : wp.idOf scraped r.key = r.id := by
  rw [WorkloadPolicy.idOf]
  cases hfind : wp.status.violations.find? fun r' => r'.key = r.key with
  | none =>
    have hother := List.find?_eq_none.mp hfind r hr
    simp at hother
  | some r' =>
    have hkey : r'.key = r.key := by simpa using List.find?_some hfind
    dsimp only
    rw [List.inj_on_of_nodup_map hkeys (List.mem_of_find?_eq_some hfind) hr hkey]

theorem idOf_push (v : ViolationRecord)
    (h : k ∈ (wp.observed scraped).map ViolationRecord.key) :
    wp.idOf (scraped ++ [v]) k = wp.idOf scraped k := by
  rw [WorkloadPolicy.idOf, WorkloadPolicy.idOf]
  cases hfind : wp.status.violations.find? fun r => r.key = k with
  | some r => rfl
  | none =>
    rw [WorkloadPolicy.observed, List.map_append, List.mem_append] at h
    have hmem : k ∈ scraped.map ViolationRecord.key := by
      refine h.resolve_left fun hold => ?_
      obtain ⟨r, hr, hkey⟩ := List.mem_map.mp hold
      exact absurd hkey (by simpa using List.find?_eq_none.mp hfind r hr)
    dsimp only
    rw [List.map_append, List.idxOf_append_of_mem hmem]

theorem idOf_push_new (v : ViolationRecord)
    (h : v.key ∉ (wp.observed scraped).map ViolationRecord.key) :
    wp.idOf (scraped ++ [v]) v.key = int64Succ^[scraped.length] wp.status.violationCount := by
  rw [WorkloadPolicy.observed, List.map_append, List.mem_append, not_or] at h
  have hfind : wp.status.violations.find? (fun r => r.key = v.key) = none := by
    refine List.find?_eq_none.mpr fun r hr heq => h.1 ?_
    exact of_decide_eq_true heq ▸ List.mem_map_of_mem hr
  rw [WorkloadPolicy.idOf, hfind]
  dsimp only
  rw [List.map_append, List.idxOf_append_of_notMem h.2, List.length_map, List.map_singleton,
    List.idxOf_cons_self, Nat.add_zero]

/-- The records are those of the keys, in their order, with their latest times and ids. -/
structure Described (wp : WorkloadPolicy) (scraped cands : List ViolationRecord) : Prop where
  keys : cands.map ViolationRecord.key = firsts ((wp.observed scraped).map ViolationRecord.key)
  times : ∀ c ∈ cands, c.lastObservedTimestamp = lastSeen (wp.observed scraped) c.key
  ids : ∀ c ∈ cands, c.id = wp.idOf scraped c.key

theorem Described.mem_keys {cands : List ViolationRecord} (h : Described wp scraped cands) :
    k ∈ cands.map ViolationRecord.key ↔ k ∈ (wp.observed scraped).map ViolationRecord.key := by
  rw [h.keys, mem_firsts]

theorem Described.push {cands : List ViolationRecord} (h : Described wp scraped cands)
    (v : ViolationRecord) :
    Described wp (scraped ++ [v])
      (absorb (int64Succ^[scraped.length] wp.status.violationCount) cands v) := by
  have hobserved : wp.observed (scraped ++ [v]) = wp.observed scraped ++ [v] :=
    (List.append_assoc _ _ _).symm
  have hknown : ∀ c ∈ cands, c.key ∈ (wp.observed scraped).map ViolationRecord.key :=
    fun c hc => h.mem_keys.mp (List.mem_map_of_mem hc)
  rw [absorb]
  split
  · next hmem =>
    refine ⟨?_, fun c' hc' => ?_, fun c' hc' => ?_⟩
    · rw [hobserved, List.map_append, List.map_singleton, firsts_push, if_pos (h.keys ▸ hmem),
        ← h.keys, List.map_map]
      exact List.map_congr_left fun c _ => ViolationRecord.refresh_key v c
    · obtain ⟨c, hc, rfl⟩ := List.mem_map.mp hc'
      rw [hobserved, ViolationRecord.refresh_key]
      by_cases hkey : c.key = v.key
      · rw [ViolationRecord.refresh, if_pos hkey, ViolationRecord.seenAgain_last, h.times c hc,
          hkey, lastSeen_push_again (h.mem_keys.mp hmem)]
      · rw [refresh_of_ne hkey, lastSeen_push_of_ne (Ne.symm hkey), h.times c hc]
    · obtain ⟨c, hc, rfl⟩ := List.mem_map.mp hc'
      rw [ViolationRecord.refresh_key, idOf_push v (hknown c hc), ← h.ids c hc]
      exact (v.continues_refresh c).id
  · next hnew =>
    have hfresh : v.key ∉ (wp.observed scraped).map ViolationRecord.key := mt h.mem_keys.mpr hnew
    have hne : ∀ c ∈ cands, v.key ≠ c.key := fun c hc heq => hnew (heq ▸ List.mem_map_of_mem hc)
    refine ⟨?_, fun c hc => ?_, fun c hc => ?_⟩
    · rw [hobserved, List.map_append, List.map_append, List.map_singleton, List.map_singleton,
        firsts_push, if_neg (h.keys ▸ hnew), ← h.keys, ViolationRecord.firstSeen_key]
    · rw [hobserved]
      rcases List.mem_append.mp hc with hc | hc
      · rw [lastSeen_push_of_ne (hne c hc), h.times c hc]
      · rw [List.mem_singleton.mp hc, ViolationRecord.firstSeen_key, lastSeen_push_new hfresh,
          ViolationRecord.firstSeen_last]
    · rcases List.mem_append.mp hc with hc | hc
      · rw [idOf_push v (hknown c hc), h.ids c hc]
      · rw [List.mem_singleton.mp hc, ViolationRecord.firstSeen_key, idOf_push_new v hfresh,
          ViolationRecord.firstSeen_id]

/-- **The merge makes the records of the keys.** -/
theorem described_mergeLoop (hkeys : (wp.status.violations.map ViolationRecord.key).Nodup)
    (scraped : List ViolationRecord) :
    Described wp scraped (wp.status.mergeLoop scraped).violations := by
  induction scraped using List.reverseRecOn with
  | nil =>
    have hobserved : wp.observed [] = wp.status.violations := List.append_nil _
    refine ⟨?_, fun r hr => ?_, fun r hr => (idOf_record hkeys hr).symm⟩
    · rw [hobserved, firsts_of_nodup hkeys]
      rfl
    · rw [hobserved]
      exact (lastSeen_of_nodup hkeys hr).symm
  | append_singleton scraped v ih =>
    have hindexed : (wp.status.mergeLoop scraped).Indexed :=
      MergeState.Indexed.foldl (indexByKey_indexes hkeys)
    rw [mergeLoop_push, MergeState.mergeViolation_violations hindexed, violationCount_mergeLoop]
    exact ih.push v

end Ids

/-! ## What is lost -/

section

variable {wp wp' : WorkloadPolicy} {order : Order String String}
  {scraped cands : List ViolationRecord} {now : Time} {acks : List AcknowledgedViolationRecord}

theorem clears_congr {r r' : ViolationRecord} (h : r'.key = r.key) :
    wp.clears r' = wp.clears r := by
  simp only [ViolationRecord.key, ViolationRecordKey.mk.injEq] at h
  obtain ⟨_, hcontainer, hpath, hroot, _⟩ := h
  unfold WorkloadPolicy.clears
  rw [hcontainer, hpath, hroot]

theorem matters_congr {v v' : ViolationRecord} (h : v'.key = v.key) :
    wp.matters order scraped v' = wp.matters order scraped v := by
  rw [WorkloadPolicy.matters, clears_congr h, h, WorkloadPolicy.matters]

theorem place_congr {v v' : ViolationRecord} (h : v'.key = v.key) :
    wp.place scraped v' = wp.place scraped v := by
  rw [WorkloadPolicy.place, h, WorkloadPolicy.place]

theorem Described.mem_newest (h : Described wp scraped cands)
    (hkeys : (cands.map ViolationRecord.key).Nodup) {c : ViolationRecord} (hc : c ∈ cands) :
    c ∈ newest ViolationRecord.lastObservedTimestamp maxViolationRecords cands ↔
      wp.place scraped c < maxViolationRecords := by
  rw [mem_newest_iff hc, WorkloadPolicy.place, ← h.keys, ahead_map hkeys h.times hc]

/-- What a recomputation leaves: of the records in the first hundred places those that matter. -/
structure Leaves (wp : WorkloadPolicy) (order : Order String String)
    (scraped cands : List ViolationRecord) (wp' : WorkloadPolicy) : Prop where
  described : Described wp scraped cands
  keys : (cands.map ViolationRecord.key).Nodup
  violations : wp'.status.violations =
    (newest ViolationRecord.lastObservedTimestamp maxViolationRecords cands).filter
      fun c => wp.matters order scraped c

theorem Recomputed.leaves (hinv : StatusInv wp.status)
    (h : Recomputed wp order scraped now wp' acks) :
    Leaves wp order scraped (wp.status.mergeLoop scraped).violations wp' := by
  have hdesc := described_mergeLoop hinv.records.keys scraped
  refine ⟨hdesc, ?_, ?_⟩
  · rw [hdesc.keys]
    exact nodup_firsts _
  · rw [h.violations, WorkloadPolicy.live, List.filter_filter]
    refine List.filter_congr fun c hc => ?_
    rw [WorkloadPolicy.matters, Bool.and_comm, hdesc.ids c (mem_of_mem_newest hc)]

namespace Leaves

variable (h : Leaves wp order scraped cands wp')

include h

theorem mem_violations {c : ViolationRecord} (hc : c ∈ cands)
    (hm : wp.matters order scraped c = true) :
    c ∈ wp'.status.violations ↔ wp.place scraped c < maxViolationRecords := by
  rw [h.violations, List.mem_filter, h.described.mem_newest h.keys hc]
  exact and_iff_left hm

theorem exists_candidate {v : ViolationRecord} (hv : v ∈ wp.observed scraped) :
    ∃ c ∈ cands, c.key = v.key :=
  List.mem_map.mp (h.described.mem_keys.mpr (List.mem_map_of_mem hv))

theorem exists_observed {c : ViolationRecord} (hc : c ∈ cands) :
    ∃ v ∈ wp.observed scraped, v.key = c.key :=
  List.mem_map.mp (h.described.mem_keys.mp (List.mem_map_of_mem hc))

theorem keeps_iff :
    KeepsWhatMatters wp order scraped wp' ↔
      (wp'.status.violations.length < maxViolationRecords →
        ∀ c ∈ cands, wp.matters order scraped c = true →
          wp.place scraped c < maxViolationRecords) := by
  refine imp_congr_right fun _ => ⟨fun hall c hc hm => ?_, fun hall v hv hm => ?_⟩
  · obtain ⟨v, hv, hkey⟩ := h.exists_observed hc
    obtain ⟨r, hr, hrkey, _⟩ := hall v hv ((matters_congr hkey).trans hm)
    have hrmem : r ∈ cands := by
      rw [h.violations] at hr
      exact mem_of_mem_newest (List.mem_of_mem_filter hr)
    have heq : r = c := List.inj_on_of_nodup_map h.keys hrmem hc (hrkey.trans hkey)
    exact (h.mem_violations hc hm).mp (heq ▸ hr)
  · obtain ⟨c, hc, hkey⟩ := h.exists_candidate hv
    have hcm : wp.matters order scraped c = true := (matters_congr hkey).trans hm
    exact ⟨c, (h.mem_violations hc hcm).mpr (hall c hc hcm), hkey, hkey ▸ h.described.ids c hc⟩

theorem full {c : ViolationRecord} (hc : c ∈ cands)
    (hout : ¬ wp.place scraped c < maxViolationRecords) :
    (newest ViolationRecord.lastObservedTimestamp maxViolationRecords cands).length =
      maxViolationRecords :=
  (full_of_not_mem_newest hc (mt (h.described.mem_newest h.keys hc).mp hout)).1

theorem short_iff
    (hfull : (newest ViolationRecord.lastObservedTimestamp maxViolationRecords cands).length =
      maxViolationRecords) :
    wp'.status.violations.length < maxViolationRecords ↔
      ∃ d ∈ cands, wp.place scraped d < maxViolationRecords ∧
        wp.matters order scraped d = false := by
  have hle := List.length_filter_le (fun c => wp.matters order scraped c)
    (newest ViolationRecord.lastObservedTimestamp maxViolationRecords cands)
  have heq := List.length_filter_eq_length_iff (p := fun c => wp.matters order scraped c)
    (l := newest ViolationRecord.lastObservedTimestamp maxViolationRecords cands)
  rw [hfull] at hle heq
  rw [h.violations, hle.lt_iff_ne, ne_eq, heq]
  constructor
  · intro hnot
    by_contra hnone
    refine hnot fun d hd => ?_
    by_contra hgone
    have hdmem := mem_of_mem_newest hd
    exact hnone ⟨d, hdmem, (h.described.mem_newest h.keys hdmem).mp hd, by simpa using hgone⟩
  · rintro ⟨d, hd, hplace, hgone⟩ hall
    have hstays := hall d ((h.described.mem_newest h.keys hd).mpr hplace)
    rw [hgone] at hstays
    cases hstays

end Leaves

/-- **What matters is only lost to what matters** if and only if nothing that is gone anyway has a
place among the first hundred while something that matters has not. -/
theorem keepsWhatMatters_iff {nodes : List PolicyNodeStatus} (hinv : StatusInv wp.status)
    (h : wp.recomputeStatus order nodes scraped now = .ok (wp', acks)) :
    KeepsWhatMatters wp order scraped wp' ↔
      ∀ v ∈ wp.observed scraped, wp.matters order scraped v = true →
        ∀ u ∈ wp.observed scraped, wp.matters order scraped u = false →
          wp.place scraped u < maxViolationRecords → wp.place scraped v < maxViolationRecords := by
  have hleaves := (recomputeStatus_ok h).leaves hinv
  rw [hleaves.keeps_iff]
  constructor
  · intro hkeeps v hv hm u hu hgone hplace
    obtain ⟨c, hc, hckey⟩ := hleaves.exists_candidate hv
    obtain ⟨d, hd, hdkey⟩ := hleaves.exists_candidate hu
    rw [← matters_congr hckey] at hm
    rw [← matters_congr hdkey] at hgone
    rw [← place_congr hdkey] at hplace
    rw [← place_congr hckey]
    by_contra hout
    have hshort := (hleaves.short_iff (hleaves.full hc hout)).mpr ⟨d, hd, hplace, hgone⟩
    exact hout (hkeeps hshort c hc hm)
  · intro hcond hshort c hc hm
    by_contra hout
    obtain ⟨d, hd, hplace, hgone⟩ := (hleaves.short_iff (hleaves.full hc hout)).mp hshort
    obtain ⟨v, hv, hvkey⟩ := hleaves.exists_observed hc
    obtain ⟨u, hu, hukey⟩ := hleaves.exists_observed hd
    have hplaces := hcond v hv ((matters_congr hvkey).trans hm) u hu
      ((matters_congr hukey).trans hgone)
    rw [place_congr hvkey, place_congr hukey] at hplaces
    exact hout (hplaces hplace)

end

namespace Sample

/-- A policy that has come to allow a hundred programs. -/
def opened : WorkloadPolicy :=
  { sealed with
    rulesByContainer :=
      AList.singleton "app" { allowed := (List.range 100).map fun n => [UInt8.ofNat (n + 1)] } }

/-- The hundred programs, and before them one that it does not allow; newest first. -/
def flood : List ViolationRecord :=
  ((List.range 100).map fun n => ran [UInt8.ofNat (n + 1)] (200 - n)) ++ [ran [0] 1]

theorem flood_keys : (flood.map ViolationRecord.key).Nodup := by
  have hpaths : (flood.map fun v => v.executablePath).Nodup := by decide +kernel
  have hkey : (fun v : ViolationRecord => v.executablePath) =
      ViolationRecordKey.executablePath ∘ ViolationRecord.key := rfl
  rw [hkey, ← List.map_map] at hpaths
  exact hpaths.of_map _

/-- The one violation that matters is cut off for a hundred that are then cleared. -/
theorem flood_pushes_out :
    StatusInv opened.status ∧
    ∃ wp' acks, opened.recomputeStatus .stored [] flood 0 = .ok (wp', acks) ∧
      wp'.status.violations = [] ∧ ¬ KeepsWhatMatters opened .stored flood wp' := by
  have hnodes : ∀ n ∈ ([] : List PolicyNodeStatus), n.code ≠ .unknown := by simp
  obtain ⟨wp', acks, h⟩ := recomputeStatus_succeeds opened .stored flood 0 hnodes
  have hfresh : ((opened.status.violations ++ flood).map ViolationRecord.key).Nodup := flood_keys
  have hempty : wp'.status.violations = [] := by
    rw [(recomputeStatus_ok h).violations, WorkloadPolicy.live, mergeLoop_fresh hfresh]
    decide +kernel
  refine ⟨StatusInv.empty, wp', acks, h, hempty, fun hkeeps => ?_⟩
  have hshort : wp'.status.violations.length < maxViolationRecords := by
    rw [hempty]
    decide
  -- the spec does not allow it, and there are no annotations
  have hmatters : opened.matters .stored flood (ran [0] 1) = true := by
    have hunasked : ∀ id, (opened.requests .stored).lookup id = none :=
      lookup_of_no_requests (by decide)
    rw [WorkloadPolicy.matters, hunasked]
    decide +kernel
  obtain ⟨r, hr, _⟩ := hkeeps hshort (ran [0] 1)
    (List.mem_append_right _ (List.mem_append_right _ (List.mem_singleton_self _))) hmatters
  rw [hempty] at hr
  cases hr

/-- The same two programs, one of them allowed, in a list with room for both. -/
theorem keepsWhatMatters_with_room :
    ∃ wp' acks, opened.recomputeStatus .stored [] (flood.drop 99) 0 = .ok (wp', acks) ∧
      KeepsWhatMatters opened .stored (flood.drop 99) wp' := by
  have hnodes : ∀ n ∈ ([] : List PolicyNodeStatus), n.code ≠ .unknown := by simp
  obtain ⟨wp', acks, h⟩ := recomputeStatus_succeeds opened .stored (flood.drop 99) 0 hnodes
  exact ⟨wp', acks, h, (keepsWhatMatters_iff StatusInv.empty h).mpr (by decide +kernel)⟩

end Sample

end RuntimeEnforcer.Api
