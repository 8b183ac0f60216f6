import RuntimeEnforcer.Proof.PolicyRuns

/-!
# Ids over the versions of a policy

An id is taken from the counter that was read, and a status patch names no version, so two turns
that read the same version take the same ids. As long as a read returns the status that is stored,
whatever else of the policy it misses, an id belongs to one key over all versions ever stored, and a
record leaves the stored violations for one of three reasons: a hundred others are at least as
recent, the rules that were read allow it, or an annotation that was read acknowledges it.
-/

set_option autoImplicit false

namespace RuntimeEnforcer.Api

open Lib

/-! ## Where the records of a new version come from -/

variable {wp newPolicy : WorkloadPolicy} {r : ViolationRecord} {s : PolicyRun}
  {acknowledged : List AcknowledgedViolationRecord} {i : TurnInput}

theorem Recomputed.mem_records {order : Order String String} {scraped : List ViolationRecord}
    {now : Time} {acks : List AcknowledgedViolationRecord}
    (h : Recomputed wp order scraped now newPolicy acks) (hr : r ∈ newPolicy.status.records) :
    r ∈ (wp.status.mergeLoop scraped).violations ∨
      r ∈ wp.status.acknowledgedViolations.map AcknowledgedViolationRecord.violation := by
  have hlive : ∀ {q : ViolationRecord}, q ∈ wp.live scraped →
      q ∈ (wp.status.mergeLoop scraped).violations :=
    fun hq => (wp.live_subperm scraped).subset hq
  rcases List.mem_append.mp hr with hr | hr
  · rw [h.violations] at hr
    exact .inl (hlive (List.mem_of_mem_filter hr))
  · obtain ⟨a, ha, rfl⟩ := List.mem_map.mp hr
    rw [h.acknowledgedViolations] at ha
    have hold : a ∈ wp.status.acknowledgedViolations ++ acks := by
      split at ha
      · exact List.mem_append_left _ ha
      · exact mem_of_mem_newest ha
    rcases List.mem_append.mp hold with ha | ha
    · exact .inr (List.mem_map_of_mem ha)
    · have hmoved : a.violation ∈ acks.map AcknowledgedViolationRecord.violation :=
        List.mem_map_of_mem ha
      rw [h.acks, map_violation_acknowledgeAs] at hmoved
      exact .inl (hlive (List.mem_of_mem_filter hmoved))

theorem mem_records_patchStatus {stored : WorkloadPolicy} (hcur : wp.status = stored.status)
    (hr : r ∈ (patchStatus wp newPolicy stored).status.records) :
    ∃ q ∈ newPolicy.status.records, q.stored = r := by
  rw [WorkloadPolicyStatus.records, patchStatus_violations hcur, patchStatus_acknowledged hcur,
    map_violation_stored, ← List.map_append] at hr
  exact List.mem_map.mp hr

theorem Good.mem_records (h : Good s) (hturn : s.turn = .listed wp)
    (hlt : s.stored.status.violationCount + i.scrapedViolations.length < 2 ^ 63)
    (hrec : Recomputed wp i.order i.scrapedViolations i.now newPolicy acknowledged)
    (hr : r ∈ (patchStatus wp newPolicy s.stored).status.records) :
    (∃ r₀ ∈ s.stored.status.records, r₀.id = r.id ∧ r₀.key = r.key) ∨
      s.stored.status.violationCount ≤ r.id := by
  have hcur := h.current wp hturn
  have hmerge := s.stored.status.merges h.inv.records.keys h.inv.count_nonneg hlt
  obtain ⟨q, hq, rfl⟩ := mem_records_patchStatus hcur hr
  rcases hrec.mem_records hq with hq | hq
  · rw [hcur] at hq
    rcases hmerge.continued.new q hq with ⟨r₀, hr₀, hcont⟩ | hid
    · exact .inl ⟨r₀, List.mem_append_left _ hr₀, hcont.id.symm, hcont.key.symm⟩
    · exact .inr hid
  · rw [hcur] at hq
    exact .inl ⟨q, List.mem_append_right _ hq, rfl, rfl⟩

/-! ## One key an id -/

/-- Over all versions that were stored, an id belongs to one key, and the counter is above it. -/
structure Identified (s : PolicyRun) : Prop where
  stored_mem : s.stored ∈ s.history
  below : ∀ v ∈ s.history, ∀ r ∈ v.status.records, r.id < s.stored.status.violationCount
  oneKey : ∀ v ∈ s.history, ∀ v' ∈ s.history, ∀ r ∈ v.status.records, ∀ r' ∈ v'.status.records,
    r.id = r'.id → r.key = r'.key

theorem Identified.start (hempty : wp.status = {}) : Identified (.start wp) := by
  have hnone : ∀ v ∈ (PolicyRun.start wp).history, ∀ r, r ∉ v.status.records := by
    intro v hv r hr
    rw [List.mem_singleton.mp hv, hempty] at hr
    exact List.not_mem_nil hr
  exact ⟨List.mem_singleton_self wp, fun v hv r hr => absurd hr (hnone v hv r),
    fun v hv _ _ r hr => absurd hr (hnone v hv r)⟩

theorem Identified.write (h : Identified s) (hstatus : wp.status = s.stored.status) :
    Identified (s.write wp) := by
  -- a version of the new history has the status of one of the old
  have hold : ∀ v ∈ (s.write wp).history, ∃ v₀ ∈ s.history, v₀.status = v.status := by
    intro v hv
    rcases List.mem_cons.mp hv with rfl | hv
    · exact ⟨s.stored, h.stored_mem, hstatus.symm⟩
    · exact ⟨v, hv, rfl⟩
  refine ⟨List.mem_cons_self, ?_, ?_⟩
  · intro v hv r hr
    obtain ⟨v₀, hv₀, heq⟩ := hold v hv
    show r.id < wp.status.violationCount
    rw [hstatus]
    exact h.below v₀ hv₀ r (heq ▸ hr)
  · intro v hv v' hv' r hr r' hr'
    obtain ⟨v₀, hv₀, heq⟩ := hold v hv
    obtain ⟨v₀', hv₀', heq'⟩ := hold v' hv'
    exact h.oneKey v₀ hv₀ v₀' hv₀' r (heq ▸ hr) r' (heq' ▸ hr')

theorem Identified.patchStatus (h : Identified s) (hinv : StatusInv wp.status)
    (hcount : s.stored.status.violationCount ≤ wp.status.violationCount)
    (hrecords : ∀ r ∈ wp.status.records,
      (∃ r₀ ∈ s.stored.status.records, r₀.id = r.id ∧ r₀.key = r.key) ∨
        s.stored.status.violationCount ≤ r.id) : Identified (s.write wp) := by
  -- a record of an old version and one of the new
  have hcross : ∀ v ∈ s.history, ∀ r ∈ v.status.records, ∀ r' ∈ wp.status.records,
      r.id = r'.id → r.key = r'.key := by
    intro v hv r hr r' hr' hid
    rcases hrecords r' hr' with ⟨r₀, hr₀, hid₀, hkey₀⟩ | hge
    · exact (h.oneKey v hv s.stored h.stored_mem r hr r₀ hr₀ (hid.trans hid₀.symm)).trans hkey₀
    · have := h.below v hv r hr
      omega
  refine ⟨List.mem_cons_self, ?_, ?_⟩
  · intro v hv r hr
    show r.id < wp.status.violationCount
    rcases List.mem_cons.mp hv with rfl | hv
    · exact (hinv.records.each r hr).id_lt
    · have := h.below v hv r hr
      omega
  · intro v hv v' hv' r hr r' hr' hid
    rcases List.mem_cons.mp hv with rfl | hold
    · rcases List.mem_cons.mp hv' with rfl | hold'
      · exact congrArg _ (List.inj_on_of_nodup_map hinv.records.ids hr hr' hid)
      · exact (hcross v' hold' r' hr' r hr hid.symm).symm
    · rcases List.mem_cons.mp hv' with rfl | hold'
      · exact hcross v hold r hr r' hr' hid
      · exact h.oneKey v hold v' hold' r hr r' hr' hid

theorem Identified.stores (h : Identified s) (hgood : Good s) (hturn : s.turn = .listed wp)
    (hlt : s.stored.status.violationCount + i.scrapedViolations.length < 2 ^ 63)
    (hrec : Recomputed wp i.order i.scrapedViolations i.now newPolicy acknowledged) :
    Identified (s.write (Api.patchStatus wp newPolicy s.stored)) := by
  obtain ⟨hinv, hcount⟩ := hgood.stores hturn hlt hrec
  refine h.patchStatus hinv (by omega) ?_
  intro r hr
  exact hgood.mem_records hturn hlt hrec hr

theorem Identified.step {op : PolicyOp} (h : Identified s) (hop : SoundStep s op) :
    Identified (s.step op) := by
  have heffect := PolicyRun.effect op s
  have hlt := hop.noWrap
  generalize s.step op = s' at heffect
  cases heffect with
  | turn t ht => exact ⟨h.stored_mem, h.below, h.oneKey⟩
  | edit => exact h.write rfl
  | list lag hturn => exact ⟨h.stored_mem, h.below, h.oneKey⟩
  | status i hturn hrec =>
    have hnew := h.stores hop.good hturn hlt hrec
    exact ⟨hnew.stored_mem, hnew.below, hnew.oneKey⟩
  | statusUnseen i res hturn hrec =>
    have hnew := h.stores hop.good hturn hlt hrec
    exact ⟨hnew.stored_mem, hnew.below, hnew.oneKey⟩
  | @metadata res wp newPolicy hturn =>
    have hnew : Identified (s.write (patchMetadata wp newPolicy s.stored)) := h.write rfl
    exact ⟨hnew.stored_mem, hnew.below, hnew.oneKey⟩

/-! ## Why a record leaves -/

/-- The reasons for which a turn on `wp` may leave the record out: a hundred other records of the
merge were seen at least as recently, the rules allow it, or an annotation asks for it. -/
inductive LeftOut (wp : WorkloadPolicy) (scraped : List ViolationRecord) (r : ViolationRecord) :
    Prop
  | trimmed (newer : List ViolationRecord) (hlen : newer.length = maxViolationRecords)
      (hsub : newer.Subperm (wp.status.mergeLoop scraped).violations)
      (hout : r.id ∉ newer.map ViolationRecord.id)
      (hnewer : ∀ q ∈ newer, r.lastObservedTimestamp ≤ q.lastObservedTimestamp)
  | cleared (h : wp.clears r = true)
  | acknowledged (annotationKey : String) (h : annotationKey ∈ wp.annotations)
      (hid : acknowledgedID annotationKey = some r.id)

theorem WorkloadPolicy.clears_congr (wp : WorkloadPolicy) {r' : ViolationRecord}
    (h : r'.key = r.key) : wp.clears r' = wp.clears r := by
  have hcontainer : r'.containerName = r.containerName :=
    congrArg ViolationRecordKey.containerName h
  have hrules : wp.rulesByContainer.lookup r'.containerName =
      wp.rulesByContainer.lookup r.containerName := by rw [hcontainer]
  have hpath : r'.executablePath = r.executablePath := congrArg ViolationRecordKey.executablePath h
  have hroot : r'.foreignRoot = r.foreignRoot := congrArg ViolationRecordKey.foreignRoot h
  simp only [WorkloadPolicy.clears, hrules, hpath, hroot]

/-- **A record of the status that was read stays, or there is a reason.** -/
theorem Recomputed.stays_or_leftOut {order : Order String String} {scraped : List ViolationRecord}
    {now : Time} {acks : List AcknowledgedViolationRecord}
    (hrec : Recomputed wp order scraped now newPolicy acks) (hinv : StatusInv wp.status)
    (hlt : wp.status.violationCount + scraped.length < 2 ^ 63) (hr : r ∈ wp.status.violations) :
    (∃ r' ∈ newPolicy.status.violations, r.Continues r') ∨ LeftOut wp scraped r := by
  have hmerge := wp.status.merges hinv.records.keys hinv.count_nonneg hlt
  obtain ⟨q, hq, hcont⟩ := hmerge.continued.old r hr
  by_cases hkept : q ∈ newest ViolationRecord.lastObservedTimestamp maxViolationRecords
      (wp.status.mergeLoop scraped).violations
  · cases hclear : wp.clears q with
    | true => exact .inr (.cleared (wp.clears_congr hcont.key ▸ hclear))
    | false =>
      have hlive : q ∈ wp.live scraped := List.mem_filter.mpr ⟨hkept, by simp [hclear]⟩
      cases hreq : (wp.requests order).lookup q.id with
      | none =>
        refine .inl ⟨q, ?_, hcont⟩
        rw [hrec.violations]
        exact List.mem_filter.mpr ⟨hlive, by simp [hreq]⟩
      | some info =>
        obtain ⟨hmem, hid⟩ := WorkloadPolicy.requests_spec hreq
        exact .inr (.acknowledged info.annotationKey hmem (hcont.id ▸ hid))
  · obtain ⟨hlen, hnewer⟩ := full_of_not_mem_newest hq hkept
    refine .inr (.trimmed _ hlen newest_subperm ?_ fun y hy => hcont.last.trans (hnewer y hy))
    -- the record is the only one of its id
    intro hout
    obtain ⟨y, hy, hid⟩ := List.mem_map.mp hout
    have hnodup := (List.nodup_append.mp
      ((List.map_append (f := ViolationRecord.id)) ▸ (hmerge.records _ hinv.records).ids)).1
    have heq := List.inj_on_of_nodup_map hnodup (mem_of_mem_newest hy) hq (hid.trans hcont.id.symm)
    exact hkept (heq ▸ hy)

/-- The reasons for which a step may take a record out of the stored violations. -/
def PolicyRun.Leaves (s : PolicyRun) (r : ViolationRecord) : PolicyOp → Prop
  | .patchStatus i _ => ∃ wp, s.turn = .listed wp ∧ LeftOut wp i.scrapedViolations r
  | _ => False

/-- The record is among the stored violations, under its id and its key. -/
def PolicyRun.Keeps (s : PolicyRun) (r : ViolationRecord) : Prop :=
  ∃ r' ∈ s.stored.status.violations, r'.id = r.id ∧ r'.key = r.key

instance (s : PolicyRun) (r : ViolationRecord) : Decidable (s.Keeps r) :=
  inferInstanceAs (Decidable (∃ r' ∈ s.stored.status.violations, r'.id = r.id ∧ r'.key = r.key))

theorem Good.keeps_or_leftOut (h : Good s) (hturn : s.turn = .listed wp)
    (hlt : s.stored.status.violationCount + i.scrapedViolations.length < 2 ^ 63)
    (hrec : Recomputed wp i.order i.scrapedViolations i.now newPolicy acknowledged)
    (hr : r ∈ s.stored.status.violations) :
    (s.write (patchStatus wp newPolicy s.stored)).Keeps r ∨
      ∃ wp, s.turn = .listed wp ∧ LeftOut wp i.scrapedViolations r := by
  have hcur := h.current wp hturn
  have hinv : StatusInv wp.status := hcur ▸ h.inv
  rcases hrec.stays_or_leftOut hinv (hcur ▸ hlt) (hcur ▸ hr) with ⟨q, hq, hcont⟩ | hout
  · have hmem : q.stored ∈ (patchStatus wp newPolicy s.stored).status.violations := by
      rw [patchStatus_violations hcur]
      exact List.mem_map_of_mem hq
    exact .inl ⟨q.stored, hmem, hcont.id, hcont.key⟩
  · exact .inr ⟨wp, hturn, hout⟩

theorem SoundStep.keeps_or_leaves {op : PolicyOp} (h : SoundStep s op)
    (hr : r ∈ s.stored.status.violations) : (s.step op).Keeps r ∨ s.Leaves r op := by
  have hsame : s.Keeps r := ⟨r, hr, rfl, rfl⟩
  have heffect := PolicyRun.effect op s
  have hlt := h.noWrap
  generalize s.step op = s' at heffect
  cases heffect with
  | turn t ht => exact .inl hsame
  | edit => exact .inl hsame
  | list lag hturn => exact .inl hsame
  | status i hturn hrec => exact h.good.keeps_or_leftOut hturn hlt hrec hr
  | statusUnseen i res hturn hrec => exact h.good.keeps_or_leftOut hturn hlt hrec hr
  | metadata res hturn => exact .inl hsame

/-! ## Whole runs -/

def PolicyRun.named (s : PolicyRun) : List (Int × ViolationRecordKey) :=
  s.history.flatMap fun v => v.status.records.map fun r => (r.id, r.key)

/-- No id was stored for two keys. -/
def PolicyRun.OneKey (s : PolicyRun) : Prop :=
  ∀ p ∈ s.named, ∀ p' ∈ s.named, p.1 = p'.1 → p.2 = p'.2

instance (s : PolicyRun) : Decidable s.OneKey :=
  inferInstanceAs (Decidable (∀ p ∈ s.named, ∀ p' ∈ s.named, p.1 = p'.1 → p.2 = p'.2))

theorem Identified.named (h : Identified s) : s.OneKey := by
  intro p hp p' hp' hid
  obtain ⟨v, hv, hmem⟩ := List.mem_flatMap.mp hp
  obtain ⟨v', hv', hmem'⟩ := List.mem_flatMap.mp hp'
  obtain ⟨r, hr, rfl⟩ := List.mem_map.mp hmem
  obtain ⟨r', hr', rfl⟩ := List.mem_map.mp hmem'
  exact h.oneKey v hv v' hv' r hr r' hr' hid

/-- A step that takes no record out of the stored violations without a reason. -/
def KeepsRecords (s : PolicyRun) (op : PolicyOp) : Prop :=
  ∀ r ∈ s.stored.status.violations, (s.step op).Keeps r ∨ s.Leaves r op

/-- **Ids are allocated once**, and no record is lost, in every run in which what `List` returns has
the status that is stored. -/
theorem ids_allocated_once {wp : WorkloadPolicy} (hempty : wp.status = {}) {ops : List PolicyOp}
    (hlt : scrapedIn ops < 2 ^ 63) (hread : Along PolicyRun.step ReadsStatus ops (.start wp)) :
    (run PolicyRun.step ops (.start wp)).OneKey ∧
      Along PolicyRun.step KeepsRecords ops (.start wp) := by
  have hsound := along_sound_of_empty hempty hlt hread
  constructor
  · have hid := run_inv (fun s op h hop => Identified.step h hop) (Identified.start hempty) hsound
    exact hid.named
  · refine hsound.mono ?_
    intro s op hop r hr
    exact hop.keeps_or_leaves hr

namespace Sample

def turn (scraped : List ViolationRecord) : TurnInput where
  order := .stored
  nodes := []
  scrapedViolations := scraped
  now := 8000000000

/-- Two syncs, each with one violation. The rules are edited in between, and the second sync still
sees the old ones. -/
def late : List PolicyOp :=
  [.list 0, .patchStatus (turn [ran [1] 5]) .ok, .patchMetadata .ok,
    .edit .monitor ∅ 2 ∅, .list 1, .patchStatus (turn [ran [2] 7]) .ok, .patchMetadata .ok]

theorem ids_allocated_once_late : (run PolicyRun.step late (.start sealed)).OneKey ∧
    Along PolicyRun.step KeepsRecords late (.start sealed) :=
  ids_allocated_once rfl (by decide)
    ⟨rfl, trivial, trivial, trivial, rfl, trivial, trivial, trivial⟩

/-- Two syncs, and the second reads the policy as it was before the first. -/
def stale : List PolicyOp :=
  [.list 0, .patchStatus (turn [ran [1] 5]) .ok, .patchMetadata .ok, .list 2]

/-- The second sync takes the id of the first for another program, and the record of the first is
gone. -/
theorem allocated_twice :
    let s := run PolicyRun.step stale (.start sealed)
    let op := PolicyOp.patchStatus (turn [ran [2] 7]) .ok
    ¬ (s.step op).OneKey ∧ ¬ KeepsRecords s op := by
  intro s op
  refine ⟨by decide +kernel, ?_⟩
  intro hkeeps
  have hmem : (ran [1] 5).firstSeen 0 ∈ s.stored.status.violations := by decide +kernel
  rcases hkeeps _ hmem with hkept | ⟨wp, hturn, hout⟩
  · have hnot : ¬ (s.step op).Keeps ((ran [1] 5).firstSeen 0) := by decide +kernel
    exact hnot hkept
  · -- what was read is the policy as it was created
    obtain rfl : sealed = wp := Turn.listed.inj hturn
    cases hout with
    | trimmed newer hlen hsub hnew hnewer =>
      have hle := hsub.length_le
      rw [hlen] at hle
      exact absurd hle (by decide +kernel)
    | cleared h => exact absurd h (by decide +kernel)
    | acknowledged annotationKey h hid => exact absurd h (AList.notMem_empty annotationKey)

end Sample

end RuntimeEnforcer.Api
