import RuntimeEnforcer.Proof.Merging

/-!
# What a record counts

The merge is fed with events, batch after batch. A record stands for the event that created it and
the events of its key from there on: its *sightings*. `ViolationRecord.CountsFrom` says that a
record has the id and the number of occurrences that go with the event at an index; `Accounts` adds
the fields, and the latest time.

One merge is described by its *candidates*, the records the loop has made before the list is cut:
each of them goes on from a record that was there, under its index, or was created by the first
event of its key in the batch (`Candidates`). The loop is gone through once, for any relation
between events, indices and records that a round keeps (`Ledger`).

The counters are `int64`. An index is compared with them through `toInt64`, which is the identity
below 2^63.
-/

set_option autoImplicit false

namespace RuntimeEnforcer.Api

open Lib

/-! ## Counters -/

/-- The `int64` that counts to `n`. -/
@[irreducible] def toInt64 (n : Nat) : Int := (n : Int).bmod (2 ^ 64)

theorem toInt64_of_lt {n : Nat} (h : n < 2 ^ 63) : toInt64 n = n := by
  unfold toInt64 Int.bmod
  dsimp only
  split <;> omega

theorem int64Succ_toInt64 (n : Nat) : int64Succ (toInt64 n) = toInt64 (n + 1) := by
  unfold int64Succ toInt64 Int.bmod
  dsimp only
  split_ifs <;> omega

/-! ## Sightings -/

variable {v : ViolationRecord} {R : List ViolationRecord → Nat → ViolationRecord → Prop}
  {events : List ViolationRecord}

/-- The events of a key from an index on. -/
def sightings (events : List ViolationRecord) (i : Nat) (k : ViolationRecordKey) :
    List ViolationRecord :=
  (events.drop i).filter fun v => v.key = k

section Sightings

variable {events : List ViolationRecord} {i : Nat} {k : ViolationRecordKey}

theorem sightings_append (h : i ≤ events.length) (batch : List ViolationRecord) :
    sightings (events ++ batch) i k =
      sightings events i k ++ batch.filter fun v => v.key = k := by
  rw [sightings, List.drop_append_of_le_length h, List.filter_append]
  rfl

theorem sightings_push_of_eq (h : i ≤ events.length) (hv : v.key = k) :
    sightings (events ++ [v]) i k = sightings events i k ++ [v] := by
  rw [sightings_append h]
  simp [hv]

theorem sightings_push_of_ne (h : i ≤ events.length) (hv : v.key ≠ k) :
    sightings (events ++ [v]) i k = sightings events i k := by
  rw [sightings_append h]
  simp [hv]

theorem sightings_last (events : List ViolationRecord) (v : ViolationRecord) :
    sightings (events ++ [v]) events.length v.key = [v] := by
  simp [sightings]

end Sightings

/-- The record has the index and the count of the event at `i`. -/
structure ViolationRecord.CountsFrom (r : ViolationRecord) (events : List ViolationRecord)
    (i : Nat) : Prop where
  creator : ∃ e, events[i]? = some e ∧ e.key = r.key
  id : r.id = toInt64 i
  occurrences : r.occurrences = toInt64 (sightings events i r.key).length

/-- A record without what is counted and timed: the fields that describe the violation. -/
def ViolationRecord.description (r : ViolationRecord) : ViolationRecord :=
  { r with
    id := 0
    occurrences := 0
    firstObservedTimestamp := Time.zero
    lastObservedTimestamp := Time.zero }

@[simp] theorem ViolationRecord.firstSeen_description (v : ViolationRecord) (id : Int) :
    (v.firstSeen id).description = v.description := rfl

@[simp] theorem ViolationRecord.seenAgain_first (r v : ViolationRecord) :
    (r.seenAgain v).firstObservedTimestamp = r.firstObservedTimestamp := rfl

@[simp] theorem ViolationRecord.firstSeen_first (v : ViolationRecord) (id : Int) :
    (v.firstSeen id).firstObservedTimestamp = v.lastObservedTimestamp := rfl

@[simp] theorem ViolationRecord.firstSeen_last (v : ViolationRecord) (id : Int) :
    (v.firstSeen id).lastObservedTimestamp = v.lastObservedTimestamp := rfl

theorem ViolationRecord.seenAgain_last (r v : ViolationRecord) :
    (r.seenAgain v).lastObservedTimestamp =
      max r.lastObservedTimestamp v.lastObservedTimestamp := by
  rw [max_def_lt]
  rfl

/-- The record is the one that the event at `i` has created: with its fields, and with the latest
time of its sightings. -/
structure ViolationRecord.Accounts (r : ViolationRecord) (events : List ViolationRecord)
    (i : Nat) : Prop extends r.CountsFrom events i where
  fields : ∃ e, events[i]? = some e ∧ r.description = e.description ∧
    r.firstObservedTimestamp = e.lastObservedTimestamp
  latest : ∃ v ∈ sightings events i r.key, v.lastObservedTimestamp = r.lastObservedTimestamp
  not_before : ∀ v ∈ sightings events i r.key,
    v.lastObservedTimestamp ≤ r.lastObservedTimestamp

/-- What a round of the loop keeps between events, an index and its record, as long as each event
comes to a record of its key that takes it (`Q`). -/
structure Ledger (R : List ViolationRecord → Nat → ViolationRecord → Prop)
    (Q : ViolationRecord → ViolationRecord → Prop) : Prop where
  created : ∀ events v, R (events ++ [v]) events.length (v.firstSeen (toInt64 events.length))
  again : ∀ {events i r} (v : ViolationRecord), R events i r → r.key = v.key → Q r v →
    R (events ++ [v]) i (r.seenAgain v)
  other : ∀ {events i r} (v : ViolationRecord), R events i r → r.key ≠ v.key →
    R (events ++ [v]) i r

theorem Ledger.refresh {Q : ViolationRecord → ViolationRecord → Prop} (hR : Ledger R Q) {i : Nat}
    {r : ViolationRecord} (hQ : r.key = v.key → Q r v) (h : R events i r) :
    R (events ++ [v]) i (v.refresh r) := by
  unfold ViolationRecord.refresh
  split
  · next heq => exact hR.again v h heq (hQ heq)
  · next hne => exact hR.other v h hne

namespace ViolationRecord.CountsFrom

variable {events : List ViolationRecord} {i : Nat} {r : ViolationRecord}

theorem lt (h : r.CountsFrom events i) : i < events.length := by
  obtain ⟨e, he, _⟩ := h.creator
  exact (List.getElem?_eq_some_iff.mp he).1

theorem creator_push (h : r.CountsFrom events i) (v : ViolationRecord) :
    ∃ e, (events ++ [v])[i]? = some e ∧ e.key = r.key := by
  rw [List.getElem?_append_left h.lt]
  exact h.creator

end ViolationRecord.CountsFrom

theorem countsFrom_created (events : List ViolationRecord) (v : ViolationRecord) :
    (v.firstSeen (toInt64 events.length)).CountsFrom (events ++ [v]) events.length := by
  refine ⟨⟨v, List.getElem?_concat_length, (v.firstSeen_key _).symm⟩, v.firstSeen_id _, ?_⟩
  have hone : toInt64 1 = 1 := toInt64_of_lt (by omega)
  rw [ViolationRecord.firstSeen_key, sightings_last, List.length_singleton, hone]
  rfl

theorem countsFrom_ledger :
    Ledger (fun events i r => r.CountsFrom events i) fun _ _ => True where
  created := countsFrom_created
  again := by
    intro events i r v h hkey _
    refine ⟨h.creator_push v, h.id, ?_⟩
    rw [ViolationRecord.seenAgain_key, sightings_push_of_eq (Nat.le_of_lt h.lt) hkey.symm]
    show int64Succ r.occurrences = _
    rw [h.occurrences, int64Succ_toInt64, List.length_append]
    rfl
  other := by
    intro events i r v h hkey
    refine ⟨h.creator_push v, h.id, ?_⟩
    rw [sightings_push_of_ne (Nat.le_of_lt h.lt) (Ne.symm hkey)]
    exact h.occurrences

theorem accounts_ledger : Ledger (fun events i r => r.Accounts events i) fun _ _ => True where
  created := by
    intro events v
    refine ⟨countsFrom_created events v, ⟨v, List.getElem?_concat_length,
      v.firstSeen_description _, v.firstSeen_first _⟩, ?_, ?_⟩
    · rw [ViolationRecord.firstSeen_key, sightings_last]
      exact ⟨v, List.mem_singleton_self v, (v.firstSeen_last _).symm⟩
    · rw [ViolationRecord.firstSeen_key, sightings_last, ViolationRecord.firstSeen_last]
      intro u hu
      rw [List.mem_singleton.mp hu]
  again := by
    intro events i r v h hkey _
    have hlt := h.toCountsFrom.lt
    obtain ⟨e, he, hdesc, hfirst⟩ := h.fields
    refine ⟨countsFrom_ledger.again v h.toCountsFrom hkey trivial, ⟨e, ?_, hdesc, hfirst⟩, ?_, ?_⟩
    · rwa [List.getElem?_append_left hlt]
    · rw [ViolationRecord.seenAgain_key, sightings_push_of_eq (Nat.le_of_lt hlt) hkey.symm,
        ViolationRecord.seenAgain_last]
      rcases max_choice r.lastObservedTimestamp v.lastObservedTimestamp with hmax | hmax
      · obtain ⟨u, hu, hulast⟩ := h.latest
        exact ⟨u, List.mem_append_left _ hu, by rw [hmax, hulast]⟩
      · exact ⟨v, by simp, hmax.symm⟩
    · rw [ViolationRecord.seenAgain_key, sightings_push_of_eq (Nat.le_of_lt hlt) hkey.symm,
        ViolationRecord.seenAgain_last]
      intro u hu
      rcases List.mem_append.mp hu with hu | hu
      · exact le_max_of_le_left (h.not_before u hu)
      · rw [List.mem_singleton.mp hu]
        exact le_max_right _ _
  other := by
    intro events i r v h hkey
    have hlt := h.toCountsFrom.lt
    obtain ⟨e, he, hdesc, hfirst⟩ := h.fields
    refine ⟨countsFrom_ledger.other v h.toCountsFrom hkey, ⟨e, ?_, hdesc, hfirst⟩, ?_, ?_⟩
    · rwa [List.getElem?_append_left hlt]
    · rw [sightings_push_of_ne (Nat.le_of_lt hlt) (Ne.symm hkey)]
      exact h.latest
    · rw [sightings_push_of_ne (Nat.le_of_lt hlt) (Ne.symm hkey)]
      exact h.not_before

/-! ## One merge -/

section Merge

variable {R : List ViolationRecord → Nat → ViolationRecord → Prop}
  {Q : ViolationRecord → ViolationRecord → Prop}
  {before prev batch cands : List ViolationRecord} {c v : ViolationRecord}

/-- The record goes on from one that was there, under its index. -/
def GoesOn (R : List ViolationRecord → Nat → ViolationRecord → Prop)
    (before prev batch : List ViolationRecord) (c : ViolationRecord) : Prop :=
  ∃ r ∈ prev, r.Continues c ∧ ∃ i, R before i r ∧ R (before ++ batch) i c

/-- The record was created by the event at `j` of the batch, the first of a key that no record
had. -/
structure CreatedAt (R : List ViolationRecord → Nat → ViolationRecord → Prop)
    (before prev batch : List ViolationRecord) (c : ViolationRecord) (j : Nat) : Prop where
  creator : ∃ e, batch[j]? = some e ∧ e.key = c.key ∧
    c.firstObservedTimestamp = e.lastObservedTimestamp
  index : R (before ++ batch) (before.length + j) c
  first : ∀ v ∈ batch.take j, v.key ≠ c.key
  fresh : ∀ r ∈ prev, r.key ≠ c.key

/-- The records a merge makes of the records that were there and of a batch. -/
structure Candidates (R : List ViolationRecord → Nat → ViolationRecord → Prop)
    (before prev batch cands : List ViolationRecord) : Prop where
  keys : (cands.map ViolationRecord.key).Nodup
  each : ∀ c ∈ cands, GoesOn R before prev batch c ∨ ∃ j, CreatedAt R before prev batch c j
  old : ∀ r ∈ prev, ∃ c ∈ cands, r.Continues c
  new : ∀ v ∈ batch, ∃ c ∈ cands, c.key = v.key

theorem GoesOn.refresh (hR : Ledger R Q) (hQ : c.key = v.key → Q c v)
    (h : GoesOn R before prev batch c) :
    GoesOn R before prev (batch ++ [v]) (v.refresh c) := by
  obtain ⟨r, hr, hcont, i, hi, hc⟩ := h
  refine ⟨r, hr, hcont.trans (v.continues_refresh c), i, hi, ?_⟩
  rw [← List.append_assoc]
  exact hR.refresh hQ hc

theorem CreatedAt.lt {j : Nat} (h : CreatedAt R before prev batch c j) : j < batch.length := by
  obtain ⟨e, he, _⟩ := h.creator
  exact (List.getElem?_eq_some_iff.mp he).1

theorem CreatedAt.refresh (hR : Ledger R Q) (hQ : c.key = v.key → Q c v) {j : Nat}
    (h : CreatedAt R before prev batch c j) :
    CreatedAt R before prev (batch ++ [v]) (v.refresh c) j := by
  have hcont := v.continues_refresh c
  refine ⟨?_, ?_, ?_, ?_⟩
  · rw [List.getElem?_append_left h.lt, hcont.key, hcont.first]
    exact h.creator
  · rw [← List.append_assoc]
    exact hR.refresh hQ h.index
  · rw [List.take_append_of_le_length (Nat.le_of_lt h.lt), hcont.key]
    exact h.first
  · rw [hcont.key]
    exact h.fresh

theorem refresh_of_ne {v r : ViolationRecord} (h : r.key ≠ v.key) : v.refresh r = r := if_neg h

theorem Candidates.start (hkeys : (prev.map ViolationRecord.key).Nodup)
    (hprev : ∀ r ∈ prev, ∃ i, R before i r) : Candidates R before prev [] prev := by
  refine ⟨hkeys, fun r hr => ?_, fun r hr => ⟨r, hr, .refl r⟩, fun v hv => absurd hv (by simp)⟩
  obtain ⟨i, hi⟩ := hprev r hr
  left
  refine ⟨r, hr, .refl r, i, hi, ?_⟩
  rwa [List.append_nil]

theorem Candidates.refresh (hR : Ledger R Q) (hQ : ∀ c ∈ cands, c.key = v.key → Q c v)
    (h : Candidates R before prev batch cands) (hc : c ∈ cands) :
    GoesOn R before prev (batch ++ [v]) (v.refresh c) ∨
      ∃ j, CreatedAt R before prev (batch ++ [v]) (v.refresh c) j := by
  rcases h.each c hc with hgoes | ⟨j, hj⟩
  · exact .inl (hgoes.refresh hR (hQ c hc))
  · exact .inr ⟨j, hj.refresh hR (hQ c hc)⟩

theorem Candidates.push_again (hR : Ledger R Q) (hQ : ∀ c ∈ cands, c.key = v.key → Q c v)
    (h : Candidates R before prev batch cands) (hv : v.key ∈ cands.map ViolationRecord.key) :
    Candidates R before prev (batch ++ [v]) (cands.map v.refresh) := by
  refine ⟨?_, ?_, ?_, ?_⟩
  · simpa [Function.comp_def] using h.keys
  · intro c' hc'
    obtain ⟨c, hc, rfl⟩ := List.mem_map.mp hc'
    exact h.refresh hR hQ hc
  · intro r hr
    obtain ⟨c, hc, hcont⟩ := h.old r hr
    exact ⟨v.refresh c, List.mem_map_of_mem hc, hcont.trans (v.continues_refresh c)⟩
  · intro u hu
    have hcand : ∃ c ∈ cands, c.key = u.key := by
      rcases List.mem_append.mp hu with hu | hu
      · exact h.new u hu
      · rw [List.mem_singleton.mp hu]
        exact List.mem_map.mp hv
    obtain ⟨c, hc, hkey⟩ := hcand
    exact ⟨v.refresh c, List.mem_map_of_mem hc, by rw [ViolationRecord.refresh_key, hkey]⟩

theorem Candidates.push_created (hR : Ledger R Q) (h : Candidates R before prev batch cands)
    (hv : v.key ∉ cands.map ViolationRecord.key) {id : Int}
    (hid : R (before ++ (batch ++ [v])) (before.length + batch.length) (v.firstSeen id)) :
    Candidates R before prev (batch ++ [v]) (cands ++ [v.firstSeen id]) := by
  have hne : ∀ c ∈ cands, c.key ≠ v.key := fun c hc heq => hv (List.mem_map.mpr ⟨c, hc, heq⟩)
  refine ⟨?_, ?_, ?_, ?_⟩
  · rw [← List.concat_eq_append, List.map_concat]
    exact h.keys.concat hv
  · intro c hc
    rcases List.mem_append.mp hc with hc | hc
    · rw [← refresh_of_ne (hne c hc)]
      exact h.refresh hR (fun c hc heq => absurd heq (hne c hc)) hc
    · right
      rw [List.mem_singleton.mp hc]
      refine ⟨batch.length, ⟨v, List.getElem?_concat_length, rfl, rfl⟩, hid, ?_, ?_⟩
      · rw [List.take_left']
        · intro u hu heq
          obtain ⟨c, hc, hkey⟩ := h.new u hu
          exact hne c hc (hkey.trans heq)
        · rfl
      · intro r hr heq
        obtain ⟨c, hc, hcont⟩ := h.old r hr
        exact hne c hc (hcont.key.trans heq)
  · intro r hr
    obtain ⟨c, hc, hcont⟩ := h.old r hr
    exact ⟨c, List.mem_append_left _ hc, hcont⟩
  · intro u hu
    rcases List.mem_append.mp hu with hu | hu
    · obtain ⟨c, hc, hkey⟩ := h.new u hu
      exact ⟨c, List.mem_append_left _ hc, hkey⟩
    · rw [List.mem_singleton.mp hu]
      exact ⟨_, List.mem_append_right _ (List.mem_singleton_self _), rfl⟩

theorem Candidates.absorb (hR : Ledger R Q) (hQ : ∀ c ∈ cands, c.key = v.key → Q c v)
    (h : Candidates R before prev batch cands) {count : Int}
    (hid : R (before ++ (batch ++ [v])) (before.length + batch.length) (v.firstSeen count)) :
    Candidates R before prev (batch ++ [v]) (absorb count cands v) := by
  unfold Api.absorb
  split
  · next hmem => exact h.push_again hR hQ hmem
  · next hnew => exact h.push_created hR hnew hid

end Merge

section Loop

variable {R : List ViolationRecord → Nat → ViolationRecord → Prop}
  {Q : ViolationRecord → ViolationRecord → Prop} {before batch : List ViolationRecord}
  {s : WorkloadPolicyStatus}

theorem mergeLoop_push (s : WorkloadPolicyStatus) (batch : List ViolationRecord)
    (v : ViolationRecord) :
    s.mergeLoop (batch ++ [v]) = (s.mergeLoop batch).mergeViolation v := by
  simp [WorkloadPolicyStatus.mergeLoop, List.foldl_append]

/-- **The merge loop**: its records are the candidates, whatever ids the new ones get. -/
theorem candidates_mergeLoop (hR : Ledger R Q)
    (hkeys : (s.violations.map ViolationRecord.key).Nodup)
    (hprev : ∀ r ∈ s.violations, ∃ i, R before i r)
    (hQ : ∀ seen v, seen ++ [v] <+: batch → ∀ cands, Candidates R before s.violations seen cands →
      ∀ c ∈ cands, c.key = v.key → Q c v)
    (hid : ∀ seen v, seen ++ [v] <+: batch → R (before ++ (seen ++ [v]))
      (before.length + seen.length) (v.firstSeen (s.mergeLoop seen).violationCount)) :
    Candidates R before s.violations batch (s.mergeLoop batch).violations := by
  induction batch using List.reverseRecOn with
  | nil => exact .start hkeys hprev
  | append_singleton batch v ih =>
    have hbefore : ∀ {seen u}, seen ++ [u] <+: batch → seen ++ [u] <+: batch ++ [v] :=
      fun h => h.trans (List.prefix_append _ _)
    have hcands := ih (fun seen u h => hQ seen u (hbefore h)) fun seen u h => hid seen u (hbefore h)
    have hindexed : (s.mergeLoop batch).Indexed :=
      MergeState.Indexed.foldl (indexByKey_indexes hkeys)
    rw [mergeLoop_push, MergeState.mergeViolation_violations hindexed]
    exact hcands.absorb hR (hQ batch v (List.prefix_refl _) _ hcands)
      (hid batch v (List.prefix_refl _))

theorem count_mergeLoop (hcount : s.violationCount = toInt64 before.length)
    (batch : List ViolationRecord) :
    (s.mergeLoop batch).violationCount = toInt64 (before ++ batch).length := by
  induction batch using List.reverseRecOn with
  | nil =>
    rw [List.append_nil]
    exact hcount
  | append_singleton batch v ih =>
    rw [mergeLoop_push, MergeState.mergeViolation_count, ih, int64Succ_toInt64]
    simp only [List.length_append, List.length_singleton, Nat.add_assoc]

theorem violationCount_mergeLoop (s : WorkloadPolicyStatus) (batch : List ViolationRecord) :
    (s.mergeLoop batch).violationCount = int64Succ^[batch.length] s.violationCount := by
  induction batch using List.reverseRecOn with
  | nil => rfl
  | append_singleton batch v ih =>
    rw [mergeLoop_push, MergeState.mergeViolation_count, ih, List.length_append,
      List.length_singleton, Function.iterate_succ_apply']

theorem mergeLoop_fresh (hnew : ((s.violations ++ batch).map ViolationRecord.key).Nodup) :
    (s.mergeLoop batch).violations =
      s.violations ++ batch.mapIdx (fun i v => v.firstSeen (int64Succ^[i] s.violationCount)) := by
  induction batch using List.reverseRecOn with
  | nil => exact (List.append_nil _).symm
  | append_singleton batch v ih =>
    rw [← List.append_assoc, ← List.concat_eq_append, List.map_concat, List.nodup_concat] at hnew
    obtain ⟨hv, hbefore⟩ := hnew
    have hviol := ih hbefore
    have hkeys : (s.violations.map ViolationRecord.key).Nodup := by
      rw [List.map_append] at hbefore
      exact hbefore.of_append_left
    have hout : ∀ r ∈ (s.mergeLoop batch).violations, r.key ≠ v.key := by
      intro r hr heq
      refine hv ?_
      rw [hviol, List.mem_append, List.mem_mapIdx] at hr
      rcases hr with hr | ⟨i, hi, rfl⟩
      · exact heq ▸ List.mem_map_of_mem (List.mem_append_left _ hr)
      · rw [← heq, ViolationRecord.firstSeen_key]
        exact List.mem_map_of_mem (List.mem_append_right _ (List.getElem_mem hi))
    have hindexed :
        MergeState.Indexed ⟨s.violations, indexByKey s.violations, s.violationCount⟩ :=
      indexByKey_indexes hkeys
    have hpush := MergeState.foldl_push hindexed hout
    rw [List.mapIdx_concat, ← List.append_assoc, ← hviol, ← violationCount_mergeLoop]
    exact hpush

theorem Ledger.candidates (hR : Ledger R Q) (hcount : s.violationCount = toInt64 before.length)
    (hkeys : (s.violations.map ViolationRecord.key).Nodup)
    (hprev : ∀ r ∈ s.violations, ∃ i, R before i r)
    (hQ : ∀ seen v, seen ++ [v] <+: batch → ∀ cands, Candidates R before s.violations seen cands →
      ∀ c ∈ cands, c.key = v.key → Q c v) :
    Candidates R before s.violations batch (s.mergeLoop batch).violations := by
  refine candidates_mergeLoop hR hkeys hprev hQ fun seen v _ => ?_
  have hcreated := hR.created (before ++ seen) v
  rw [← count_mergeLoop hcount seen, List.append_assoc] at hcreated
  rwa [List.length_append] at hcreated

end Loop

/-- What the cut leaves of the candidates. -/
structure Kept (cands kept : List ViolationRecord) : Prop where
  length : kept.length = min maxViolationRecords cands.length
  subperm : kept.Subperm cands
  newest : ∀ c ∈ cands, c ∉ kept → ∀ k ∈ kept, c.lastObservedTimestamp ≤ k.lastObservedTimestamp

theorem kept_newest (cands : List ViolationRecord) :
    Kept cands (newest ViolationRecord.lastObservedTimestamp maxViolationRecords cands) := by
  refine ⟨?_, newest_subperm, fun c hc hout => (full_of_not_mem_newest hc hout).2⟩
  rw [Lib.newest, List.length_take, (newestFirst_perm _ _).length_eq]

/-! ## Batch after batch -/

/-- The status after the batches, from an empty one. -/
def mergeBatches (batches : List (List ViolationRecord)) : WorkloadPolicyStatus :=
  batches.foldl WorkloadPolicyStatus.mergeScrapedViolations {}

theorem mergeBatches_push (batches : List (List ViolationRecord)) (batch : List ViolationRecord) :
    mergeBatches (batches ++ [batch]) =
      (mergeBatches batches).mergeScrapedViolations batch := by
  simp [mergeBatches, List.foldl_append]

/-- The status accounts for the events. -/
structure AccountsFor (events : List ViolationRecord) (s : WorkloadPolicyStatus) : Prop where
  count : s.violationCount = toInt64 events.length
  keys : (s.violations.map ViolationRecord.key).Nodup
  each : ∀ r ∈ s.violations, ∃ i, r.Accounts events i

theorem AccountsFor.candidates {s : WorkloadPolicyStatus} (h : AccountsFor events s)
    (batch : List ViolationRecord) :
    Candidates (fun events i r => r.Accounts events i) events s.violations batch
      (s.mergeLoop batch).violations :=
  accounts_ledger.candidates h.count h.keys h.each fun _ _ _ _ _ _ _ _ => trivial

theorem Candidates.keys_of_kept {before prev batch cands kept : List ViolationRecord}
    (h : Candidates R before prev batch cands) (hkept : kept.Subperm cands) :
    (kept.map ViolationRecord.key).Nodup := by
  obtain ⟨l, hperm, hsub⟩ := hkept
  exact (hperm.map _).nodup_iff.mp (h.keys.sublist (hsub.map _))

theorem Candidates.index {before prev batch cands : List ViolationRecord}
    (h : Candidates R before prev batch cands) {c : ViolationRecord} (hc : c ∈ cands) :
    ∃ i, R (before ++ batch) i c := by
  rcases h.each c hc with ⟨_, _, _, i, _, hi⟩ | ⟨j, hj⟩
  · exact ⟨i, hi⟩
  · exact ⟨_, hj.index⟩

theorem AccountsFor.merge {s : WorkloadPolicyStatus} (h : AccountsFor events s)
    (batch : List ViolationRecord) :
    AccountsFor (events ++ batch) (s.mergeScrapedViolations batch) := by
  have hcands := h.candidates batch
  have hkept := kept_newest (s.mergeLoop batch).violations
  refine ⟨count_mergeLoop h.count batch, hcands.keys_of_kept hkept.subperm, fun r hr => ?_⟩
  exact hcands.index (hkept.subperm.subset hr)

theorem accountsFor_mergeBatches (batches : List (List ViolationRecord)) :
    AccountsFor batches.flatten (mergeBatches batches) := by
  induction batches using List.reverseRecOn with
  | nil =>
    have hzero : toInt64 0 = 0 := toInt64_of_lt (by omega)
    exact ⟨hzero.symm, List.nodup_nil, fun r hr => absurd hr List.not_mem_nil⟩
  | append_singleton batches batch ih =>
    rw [mergeBatches_push, List.flatten_append, List.flatten_singleton]
    exact ih.merge batch

/-! ## The split does not matter -/

theorem absorb_perm {l l' : List ViolationRecord} (h : l.Perm l') (count : Int)
    (v : ViolationRecord) : (absorb count l v).Perm (absorb count l' v) := by
  have hmem : v.key ∈ l.map ViolationRecord.key ↔ v.key ∈ l'.map ViolationRecord.key :=
    (h.map _).mem_iff
  unfold absorb
  by_cases hv : v.key ∈ l.map ViolationRecord.key
  · rw [if_pos hv, if_pos (hmem.mp hv)]
    exact h.map _
  · rw [if_neg hv, if_neg (mt hmem.mpr hv)]
    exact h.append_right _

theorem MergeState.foldl_perm {scraped : List ViolationRecord} {m m' : MergeState}
    (hm : m.Indexed) (hm' : m'.Indexed) (hperm : m.violations.Perm m'.violations)
    (hcount : m.violationCount = m'.violationCount) :
    (scraped.foldl mergeViolation m).violations.Perm
      (scraped.foldl mergeViolation m').violations := by
  induction scraped generalizing m m' with
  | nil => exact hperm
  | cons v scraped ih =>
    refine ih (hm.mergeViolation v) (hm'.mergeViolation v) ?_ ?_
    · rw [mergeViolation_violations hm, mergeViolation_violations hm', hcount]
      exact absorb_perm hperm _ v
    · rw [mergeViolation_count, mergeViolation_count, hcount]

/-- The records of all the events, merged at once and not cut. -/
def recordsOf (events : List ViolationRecord) : List ViolationRecord :=
  (({} : WorkloadPolicyStatus).mergeLoop events).violations

/-- No merge has more candidates than it keeps. -/
def NothingDropped (batches : List (List ViolationRecord)) : Prop :=
  ∀ pre batch, pre ++ [batch] <+: batches →
    ((mergeBatches pre).mergeLoop batch).violations.length ≤ maxViolationRecords

theorem recordsOf_candidates (events : List ViolationRecord) :
    Candidates (fun events i r => r.Accounts events i) [] [] events (recordsOf events) :=
  (accountsFor_mergeBatches []).candidates events

theorem mergeBatches_perm {batches : List (List ViolationRecord)} (h : NothingDropped batches) :
    (mergeBatches batches).violations.Perm (recordsOf batches.flatten) := by
  induction batches using List.reverseRecOn with
  | nil => exact List.Perm.refl _
  | append_singleton batches batch ih =>
    have hbefore : NothingDropped batches := fun pre b hpre =>
      h pre b (hpre.trans (List.prefix_append _ _))
    have hprev := accountsFor_mergeBatches batches
    have hall := accountsFor_mergeBatches []
    have hcut : (newest ViolationRecord.lastObservedTimestamp maxViolationRecords
        ((mergeBatches batches).mergeLoop batch).violations).Perm
          ((mergeBatches batches).mergeLoop batch).violations := by
      rw [newest, List.take_of_length_le]
      · exact newestFirst_perm _ _
      · rw [(newestFirst_perm _ _).length_eq]
        exact h batches batch (List.prefix_refl _)
    rw [mergeBatches_push, List.flatten_append, List.flatten_singleton]
    refine hcut.trans ?_
    -- the loop over this batch goes on from the records of the events before it
    have hsplit : recordsOf (batches.flatten ++ batch) = (batch.foldl MergeState.mergeViolation
        (({} : WorkloadPolicyStatus).mergeLoop batches.flatten)).violations := by
      rw [recordsOf, WorkloadPolicyStatus.mergeLoop, List.foldl_append]
      rfl
    rw [hsplit]
    refine MergeState.foldl_perm (indexByKey_indexes hprev.keys)
      (MergeState.Indexed.foldl (indexByKey_indexes hall.keys)) (ih hbefore) ?_
    rw [hprev.count]
    exact (count_mergeLoop hall.count batches.flatten).symm

theorem length_mergeBatches_le (batches : List (List ViolationRecord)) :
    (mergeBatches batches).violations.length ≤ maxViolationRecords := by
  cases batches using List.reverseRecOn with
  | nil => exact Nat.zero_le _
  | append_singleton batches batch =>
    rw [mergeBatches_push]
    exact newest_length_le

theorem NothingDropped.of_flatten {batches batches' : List (List ViolationRecord)}
    (h : NothingDropped batches) (heq : batches.flatten = batches'.flatten) :
    NothingDropped batches' := by
  have hle : (recordsOf batches'.flatten).length ≤ maxViolationRecords := by
    rw [← heq, ← (mergeBatches_perm h).length_eq]
    exact length_mergeBatches_le batches
  intro pre batch hpre
  refine le_trans ?_ hle
  have hcands := (accountsFor_mergeBatches pre).candidates batch
  have hevents : pre.flatten ++ batch <+: batches'.flatten := by
    obtain ⟨post, rfl⟩ := hpre
    exact ⟨post.flatten, by simp⟩
  -- a candidate has the key of an event, and the key of an event has a record
  have hkeys : ((mergeBatches pre).mergeLoop batch).violations.map ViolationRecord.key ⊆
      (recordsOf batches'.flatten).map ViolationRecord.key := by
    intro k hk
    obtain ⟨c, hc, rfl⟩ := List.mem_map.mp hk
    obtain ⟨i, hi⟩ := hcands.index hc
    obtain ⟨e, he, hkey⟩ := hi.creator
    obtain ⟨r, hr, hrk⟩ := (recordsOf_candidates batches'.flatten).new e
      (hevents.subset (List.mem_of_getElem? he))
    exact List.mem_map.mpr ⟨r, hr, hrk.trans hkey⟩
  simpa using (List.subperm_of_subset hcands.keys hkeys).length_le

/-- **The merge accounts for every event.** -/
theorem merge_accounts_for_every_event :
    (∀ batches, (mergeBatches batches).violationCount = toInt64 batches.flatten.length ∧
      ∀ r ∈ (mergeBatches batches).violations, ∃ i, r.Accounts batches.flatten i) ∧
    (∀ batches batch, ∃ cands,
      Candidates (fun events i r => r.Accounts events i) batches.flatten
        (mergeBatches batches).violations batch cands ∧
      Kept cands (mergeBatches (batches ++ [batch])).violations) ∧
    (∀ batches batches', batches.flatten = batches'.flatten → NothingDropped batches →
      (mergeBatches batches).violations.Perm (mergeBatches batches').violations) := by
  refine ⟨fun batches => ?_, fun batches batch => ?_, fun batches batches' heq h => ?_⟩
  · exact ⟨(accountsFor_mergeBatches batches).count, (accountsFor_mergeBatches batches).each⟩
  · refine ⟨_, (accountsFor_mergeBatches batches).candidates batch, ?_⟩
    rw [mergeBatches_push]
    exact kept_newest _
  · have h' := mergeBatches_perm (h.of_flatten heq)
    rw [← heq] at h'
    exact (mergeBatches_perm h).trans h'.symm

end RuntimeEnforcer.Api
