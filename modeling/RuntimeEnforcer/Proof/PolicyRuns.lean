import RuntimeEnforcer.Controller.PolicyRun
import RuntimeEnforcer.Proof.StatusInvariant

/-!
# What a step of the controller can do to a policy

`Effect` lists it once: most steps change nothing but the controller's turn, a user writes spec and
annotations, a status patch that the server carries out stores a recomputed status, a metadata patch
stores annotations. `Good` is what every run has whose reads return the status that is stored: the
representation invariant, and a turn that works on the stored status. The bound on what is scraped
keeps the counter from wrapping.
-/

set_option autoImplicit false

namespace RuntimeEnforcer.Api

open Lib

/-! ## The effects -/

inductive Effect (s : PolicyRun) : PolicyOp → PolicyRun → Prop
  | turn {op : PolicyOp} (t : Turn) (ht : t = s.turn ∨ t = .idle)
      (hpatched : ∀ wp newPolicy, s.turn = .patched wp newPolicy → t = s.turn ∨
        ∃ res, op = .patchMetadata res ∧ res.applied = false) :
      Effect s op { s with turn := t }
  | edit (mode : Mode) (rulesByContainer : GoMap ContainerName WorkloadPolicyRules)
      (generation : Int) (annotations : GoMap String String) :
      Effect s (.edit mode rulesByContainer generation annotations)
        (s.write { s.stored with mode, rulesByContainer, generation, annotations })
  | list (lag : Nat) (hturn : s.turn = .idle) :
      Effect s (.list lag)
        { s with turn := .listed (s.read lag), older := s.older.take (s.behind lag) }
  | status (i : TurnInput) {wp newPolicy : WorkloadPolicy}
      {acknowledged : List AcknowledgedViolationRecord} (hturn : s.turn = .listed wp)
      (hrec : Recomputed wp i.order i.scrapedViolations i.now newPolicy acknowledged) :
      Effect s (.patchStatus i .ok)
        { s.write (patchStatus wp newPolicy s.stored) with
          acks := s.acks ++ acknowledged
          logs := s.logs ++ acknowledged
          turn := .patched wp newPolicy }
  | statusUnseen (i : TurnInput) (res : PatchResult) {wp newPolicy : WorkloadPolicy}
      {acknowledged : List AcknowledgedViolationRecord} (hturn : s.turn = .listed wp)
      (hrec : Recomputed wp i.order i.scrapedViolations i.now newPolicy acknowledged)
      (hres : res = .failed true)
      (hok : wp.recomputeStatus i.order i.nodes i.scrapedViolations i.now =
        .ok (newPolicy, acknowledged)) :
      Effect s (.patchStatus i res)
        { s.write (patchStatus wp newPolicy s.stored) with
          acks := s.acks ++ acknowledged
          turn := .idle }
  | metadata (res : PatchResult) {wp newPolicy : WorkloadPolicy}
      (hturn : s.turn = .patched wp newPolicy) :
      Effect s (.patchMetadata res)
        { s.write (patchMetadata wp newPolicy s.stored) with turn := .idle }

theorem Effect.stays (s : PolicyRun) (op : PolicyOp) : Effect s op s :=
  .turn s.turn (.inl rfl) fun _ _ _ => .inl rfl

theorem Effect.ends {s : PolicyRun} {wp : WorkloadPolicy} (hturn : s.turn = .listed wp)
    (op : PolicyOp) : Effect s op { s with turn := .idle } :=
  .turn .idle (.inr rfl) fun _ _ hpatched => by simp [hturn] at hpatched

theorem effect_patchStatus (i : TurnInput) (res : PatchResult) (s : PolicyRun) :
    Effect s (.patchStatus i res) (s.step (.patchStatus i res)) := by
  cases hturn : s.turn with
  | listed wp =>
    cases hrec : wp.recomputeStatus i.order i.nodes i.scrapedViolations i.now with
    | error e =>
      simp only [PolicyRun.step, hturn, hrec]
      exact .ends hturn _
    | ok out =>
      obtain ⟨newPolicy, acknowledged⟩ := out
      simp only [PolicyRun.step, hturn, hrec]
      have hrecomputed := recomputeStatus_ok hrec
      cases res with
      | ok => exact .status i hturn hrecomputed
      | notFound => exact .ends hturn _
      | failed applied =>
        cases applied with
        | true => exact .statusUnseen i (.failed true) hturn hrecomputed rfl hrec
        | false => exact .ends hturn _
  | _ =>
    simp only [PolicyRun.step, hturn]
    exact .stays s _

theorem effect_patchMetadata (res : PatchResult) (s : PolicyRun) :
    Effect s (.patchMetadata res) (s.step (.patchMetadata res)) := by
  cases hturn : s.turn with
  | patched wp newPolicy =>
    cases happlied : res.applied with
    | true =>
      simp only [PolicyRun.step, hturn, happlied]
      exact .metadata res hturn
    | false =>
      simp only [PolicyRun.step, hturn, happlied]
      exact .turn .idle (.inr rfl) fun _ _ _ => .inr ⟨res, rfl, happlied⟩
  | _ =>
    simp only [PolicyRun.step, hturn]
    exact .stays s _

/-- **Every step has one of the effects.** A step that stores nothing may end the turn; after a
status patch only a metadata patch that is not carried out ends it like that. The controller takes a
status patch that is stored for a failure if it does not hear of it. -/
theorem PolicyRun.effect (op : PolicyOp) (s : PolicyRun) : Effect s op (s.step op) := by
  cases op with
  | edit mode rules generation annotations => exact .edit mode rules generation annotations
  | list lag =>
    cases hturn : s.turn with
    | idle =>
      simp only [PolicyRun.step, hturn]
      exact .list lag hturn
    | _ =>
      simp only [PolicyRun.step, hturn]
      exact .stays s _
  | abort =>
    cases hturn : s.turn with
    | listed wp =>
      simp only [PolicyRun.step, hturn]
      exact .ends hturn _
    | _ =>
      simp only [PolicyRun.step, hturn]
      exact .stays s _
  | patchStatus i res => exact effect_patchStatus i res s
  | patchMetadata res => exact effect_patchMetadata res s

/-! ## A patch of the status that is stored -/

theorem ViolationRecord.Sane.stored {r : ViolationRecord} {count : Int} (h : r.Sane count) :
    r.stored.Sane count :=
  { h with observed := Time.stored_mono h.observed }

theorem Records.stored {count : Int} {live acked : List ViolationRecord}
    (h : Records count live acked) :
    Records count (live.map ViolationRecord.stored) (acked.map ViolationRecord.stored) := by
  refine ⟨?_, ?_, ?_⟩
  · simpa [Function.comp_def] using h.keys
  · simpa [Function.comp_def] using h.ids
  · intro r hr
    rw [← List.map_append] at hr
    obtain ⟨r₀, hr₀, rfl⟩ := List.mem_map.mp hr
    exact (h.each r₀ hr₀).stored

theorem map_violation_stored (l : List AcknowledgedViolationRecord) :
    (l.map AcknowledgedViolationRecord.stored).map AcknowledgedViolationRecord.violation =
      (l.map AcknowledgedViolationRecord.violation).map ViolationRecord.stored := by
  simp [Function.comp_def]

theorem StatusInv.patchStatus {wp newPolicy stored : WorkloadPolicy}
    (h : StatusInv newPolicy.status) (hcur : wp.status = stored.status) :
    StatusInv (patchStatus wp newPolicy stored).status where
  violations_le := by
    rw [patchStatus_violations hcur, List.length_map]
    exact h.violations_le
  violations_sorted := by
    rw [patchStatus_violations hcur, NewestFirst, List.pairwise_map]
    exact h.violations_sorted.imp fun hle => Time.stored_mono hle
  acknowledged_le := by
    rw [patchStatus_acknowledged hcur, List.length_map]
    exact h.acknowledged_le
  acknowledged_sorted := by
    rw [patchStatus_acknowledged hcur, NewestFirst, List.pairwise_map]
    exact h.acknowledged_sorted.imp fun hle => Time.stored_mono hle
  records := by
    rw [patchStatus_violations hcur, patchStatus_acknowledged hcur, map_violation_stored,
      patchStatus_count (congrArg _ hcur)]
    exact h.records.stored
  count_nonneg := by
    rw [patchStatus_count (congrArg _ hcur)]
    exact h.count_nonneg
  active := by
    rw [patchStatus_active hcur, patchStatus_violations hcur, List.length_map]
    exact h.active

/-! ## Runs that read the stored status -/

/-- The version a `List` returns has the status that is stored. -/
def ReadsStatus (s : PolicyRun) : PolicyOp → Prop
  | .list lag => (s.read lag).status = s.stored.status
  | _ => True

/-- The stored status is sound, and a turn works on it. -/
structure Good (s : PolicyRun) : Prop where
  inv : StatusInv s.stored.status
  current : ∀ wp, s.turn = .listed wp → wp.status = s.stored.status

/-- What the step scrapes does not make the counter wrap. -/
def NoWrap (s : PolicyRun) (op : PolicyOp) : Prop :=
  s.stored.status.violationCount + op.scraped < 2 ^ 63

theorem Good.start {wp : WorkloadPolicy} (hempty : wp.status = {}) : Good (.start wp) where
  inv := by
    show StatusInv wp.status
    exact hempty ▸ StatusInv.empty
  current := by
    intro wp' h
    cases h

theorem Good.stores {s : PolicyRun} (h : Good s) {i : TurnInput} {wp newPolicy : WorkloadPolicy}
    {acknowledged : List AcknowledgedViolationRecord} (hturn : s.turn = .listed wp)
    (hlt : s.stored.status.violationCount + i.scrapedViolations.length < 2 ^ 63)
    (hrec : Recomputed wp i.order i.scrapedViolations i.now newPolicy acknowledged) :
    StatusInv (patchStatus wp newPolicy s.stored).status ∧
      (patchStatus wp newPolicy s.stored).status.violationCount =
        s.stored.status.violationCount + i.scrapedViolations.length := by
  have hcur := h.current wp hturn
  have hinv : StatusInv wp.status := hcur ▸ h.inv
  obtain ⟨hnew, hcount⟩ := hinv.recompute (hcur ▸ hlt) hrec
  refine ⟨hnew.patchStatus hcur, ?_⟩
  rw [patchStatus_count (congrArg _ hcur), hcount, hcur]

/-- **One step.** -/
theorem Good.step {s : PolicyRun} {op : PolicyOp} (h : Good s) (hread : ReadsStatus s op)
    (hlt : NoWrap s op) :
    Good (s.step op) ∧
      (s.step op).stored.status.violationCount ≤ s.stored.status.violationCount + op.scraped := by
  have heffect := PolicyRun.effect op s
  generalize s.step op = s' at heffect
  cases heffect with
  | turn t ht =>
    refine ⟨⟨h.inv, ?_⟩, by show s.stored.status.violationCount ≤ _; omega⟩
    intro wp hwp
    rcases ht with rfl | rfl
    · exact h.current wp hwp
    · cases hwp
  | edit => exact ⟨⟨h.inv, h.current⟩, by show s.stored.status.violationCount ≤ _; omega⟩
  | list lag hturn =>
    refine ⟨⟨h.inv, ?_⟩, by show s.stored.status.violationCount ≤ _; omega⟩
    intro wp hwp
    cases hwp
    exact hread
  | status i hturn hrec =>
    obtain ⟨hinv, hcount⟩ := h.stores hturn hlt hrec
    refine ⟨⟨hinv, ?_⟩, Int.le_of_eq hcount⟩
    intro wp hwp
    cases hwp
  | statusUnseen i res hturn hrec =>
    obtain ⟨hinv, hcount⟩ := h.stores hturn hlt hrec
    refine ⟨⟨hinv, ?_⟩, Int.le_of_eq hcount⟩
    intro wp hwp
    cases hwp
  | metadata res hturn =>
    refine ⟨⟨h.inv, ?_⟩, by show s.stored.status.violationCount ≤ _; omega⟩
    intro wp hwp
    cases hwp

/-- A step of a run that reads the stored status and does not make the counter wrap. -/
structure SoundStep (s : PolicyRun) (op : PolicyOp) : Prop where
  good : Good s
  reads : ReadsStatus s op
  noWrap : NoWrap s op

/-- **Every step of such a run is sound.** -/
theorem along_sound {ops : List PolicyOp} {s : PolicyRun} (h : Good s)
    (hlt : s.stored.status.violationCount + scrapedIn ops < 2 ^ 63)
    (hread : Along PolicyRun.step ReadsStatus ops s) : Along PolicyRun.step SoundStep ops s := by
  induction ops generalizing s with
  | nil => trivial
  | cons op ops ih =>
    rw [scrapedIn, List.map_cons, List.sum_cons] at hlt
    have hone : NoWrap s op := by
      unfold NoWrap
      omega
    obtain ⟨hgood, hcount⟩ := h.step hread.1 hone
    refine ⟨⟨h, hread.1, hone⟩, ih hgood ?_ hread.2⟩
    rw [scrapedIn]
    omega

theorem along_sound_of_empty {wp : WorkloadPolicy} (hempty : wp.status = {}) {ops : List PolicyOp}
    (hlt : scrapedIn ops < 2 ^ 63) (hread : Along PolicyRun.step ReadsStatus ops (.start wp)) :
    Along PolicyRun.step SoundStep ops (.start wp) := by
  refine along_sound (Good.start hempty) ?_ hread
  have hcount : wp.status.violationCount = 0 := by rw [hempty]
  show wp.status.violationCount + scrapedIn ops < 2 ^ 63
  omega

end RuntimeEnforcer.Api
