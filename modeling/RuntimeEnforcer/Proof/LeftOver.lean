import RuntimeEnforcer.Proof.Acknowledge

/-!
# Requests that stay behind

A request goes with the metadata patch of the turn that meets it, and it is dropped for no other
reason than that its violation is among the live ones. When the turn fails between its two patches
the violation has moved to the acknowledged ones for good, so no later turn drops the request: it
stays, however many turns succeed (`Sample.left_over`). Of two requests for one violation a turn
drops one only, and a request that is written after its violation was acknowledged is never met.

These are the only ways in which one can stay behind. `AsksOnce` rules them out as a condition on
what the users write and on which patches are carried out; it says nothing of what the controller
has stored. From it `Orderly` is kept by every step, of which the important part is `waiting`: a
stored annotation that names an acknowledged violation is one that the turn in progress has dropped,
and its metadata patch is still to come. Between two turns there is none (`requests_consumed`).
-/

set_option autoImplicit false

namespace RuntimeEnforcer.Api

open Lib

/-- No annotation names a violation that is among the acknowledged ones. -/
def Consumed (wp : WorkloadPolicy) : Prop :=
  ∀ key ∈ wp.annotations, ∀ a ∈ wp.status.acknowledgedViolations, acknowledgedID key ≠ some a.id

/-- No two annotations name one violation. -/
def OneRequestEach (wp : WorkloadPolicy) : Prop :=
  ∀ key ∈ wp.annotations, ∀ key' ∈ wp.annotations, ∀ id, acknowledgedID key = some id →
    acknowledgedID key' = some id → key = key'

/-! ## What a recomputation drops -/

variable {annotations : GoMap String String} {requests : GoMap Int AnnotationInfo}
  {violations scraped : List ViolationRecord} {key : String} {newPolicy wp : WorkloadPolicy}
  {acks : List AcknowledgedViolationRecord} {order : Order String String} {now : Time}

theorem lookup_of_dropMet {reason : String}
    (h : (dropMet requests violations annotations).lookup key = some reason) :
    annotations.lookup key = some reason := by
  induction violations generalizing annotations with
  | nil => exact h
  | cons v violations ih =>
    rw [dropMet, List.foldl_cons] at h
    cases hreq : requests.lookup v.id with
    | none =>
      rw [hreq] at h
      exact ih h
    | some info =>
      rw [hreq] at h
      have hrest := ih h
      rw [GoMap.lookup_erase_eq] at hrest
      split at hrest
      · cases hrest
      · exact hrest

theorem mem_of_mem_dropMet (h : key ∈ dropMet requests violations annotations) :
    key ∈ annotations := by
  obtain ⟨reason, hreason⟩ := Option.isSome_iff_exists.mp (AList.lookup_isSome.mpr h)
  exact AList.lookup_isSome.mp (by rw [lookup_of_dropMet hreason]; rfl)

theorem not_mem_dropMet {v : ViolationRecord} (hv : v ∈ violations) {info : AnnotationInfo}
    (hreq : requests.lookup v.id = some info) :
    info.annotationKey ∉ dropMet requests violations annotations := by
  induction violations generalizing annotations with
  | nil => cases hv
  | cons w violations ih =>
    rw [dropMet, List.foldl_cons]
    rcases List.mem_cons.mp hv with rfl | hrest
    · rw [hreq]
      intro hmem
      exact (AList.mem_erase.mp (mem_of_mem_dropMet hmem)).1 rfl
    · exact ih hrest

/-- A violation that is acknowledged after a recomputation was so before, or a request for it was
met and has gone. -/
theorem Recomputed.acknowledged_cases (h : Recomputed wp order scraped now newPolicy acks)
    {a : AcknowledgedViolationRecord} (ha : a ∈ newPolicy.status.acknowledgedViolations) :
    a ∈ wp.status.acknowledgedViolations ∨
      ∃ key ∈ wp.annotations, acknowledgedID key = some a.id ∧ key ∉ newPolicy.annotations := by
  have hmem : a ∈ wp.status.acknowledgedViolations ++ acks := by
    rw [h.acknowledgedViolations] at ha
    split at ha
    · exact List.mem_append_left _ ha
    · exact mem_of_mem_newest ha
  refine (List.mem_append.mp hmem).imp_right fun hnew => ?_
  rw [h.acks] at hnew
  obtain ⟨v, hv, hack⟩ := List.mem_filterMap.mp hnew
  obtain ⟨info, hreq, rfl⟩ := Option.map_eq_some_iff.mp hack
  obtain ⟨hinfo, hinfoID⟩ := WorkloadPolicy.requests_spec hreq
  exact ⟨info.annotationKey, hinfo, hinfoID, h.annotations ▸ not_mem_dropMet hv hreq⟩

theorem Recomputed.mem_annotations (h : Recomputed wp order scraped now newPolicy acks)
    (hkey : key ∈ newPolicy.annotations) : key ∈ wp.annotations := by
  rw [h.annotations] at hkey
  exact mem_of_mem_dropMet hkey

/-- An annotation that stays names no violation that is now acknowledged: not one that was so
before, and not one of this turn, whose only request has gone. -/
theorem Recomputed.consumed (h : Recomputed wp order scraped now newPolicy acks)
    (hclean : Consumed wp) (hone : OneRequestEach wp) : Consumed newPolicy := by
  intro key hkey a ha hid
  rcases h.acknowledged_cases ha with hold | ⟨key', hkey', hid', hgone⟩
  · exact hclean key (h.mem_annotations hkey) a hold hid
  · obtain rfl := hone key (h.mem_annotations hkey) key' hkey' a.id hid hid'
    exact hgone hkey

/-- What the metadata patch leaves of a key: the value that is stored, where the turn has not
touched the key, or else the new one. -/
theorem lookup_patchMetadata {stored : WorkloadPolicy} {reason : String}
    (h : (patchMetadata wp newPolicy stored).annotations.lookup key = some reason) :
    newPolicy.annotations.lookup key = wp.annotations.lookup key ∧
        stored.annotations.lookup key = some reason ∨
      newPolicy.annotations.lookup key = some reason := by
  by_cases hnull : newPolicy.annotations.entries = [] ∧ wp.annotations.entries ≠ []
  · have hempty : (patchMetadata wp newPolicy stored).annotations = ∅ := by
      simp [patchMetadata, patchMap, hnull.1, hnull.2]
    rw [hempty] at h
    cases h
  · have hkeys : newPolicy.annotations.entries ≠ [] ∨ wp.annotations.entries = [] := by
      by_cases hn : newPolicy.annotations.entries = []
      · exact .inr (Classical.not_not.mp fun hw => hnull ⟨hn, hw⟩)
      · exact .inl hn
    rw [patchMetadata, lookup_patchMap (patchValue_self none none) hkeys, patchValue] at h
    split at h
    · next hsame => exact .inl ⟨hsame, h⟩
    · exact .inr h

/-- What the metadata patch leaves: the annotations of the new policy, and those that came after the
read. -/
theorem mem_patchMetadata {stored : WorkloadPolicy}
    (h : key ∈ (patchMetadata wp newPolicy stored).annotations) :
    key ∈ newPolicy.annotations ∨ key ∈ stored.annotations ∧ key ∉ wp.annotations := by
  obtain ⟨reason, hreason⟩ := Option.isSome_iff_exists.mp (AList.lookup_isSome.mpr h)
  rcases lookup_patchMetadata hreason with ⟨hsame, hstored⟩ | hnew
  · by_cases hmem : key ∈ newPolicy.annotations
    · exact .inl hmem
    · refine .inr ⟨AList.lookup_isSome.mp (by rw [hstored]; rfl), AList.lookup_eq_none.mp ?_⟩
      rw [← hsame]
      exact AList.lookup_eq_none.mpr hmem
  · exact .inl (AList.lookup_isSome.mp (by rw [hnew]; rfl))

/-! ## Whole runs -/

/-- The turn has met a request: an annotation that it has read is not among those it leaves. -/
def Meets (wp newPolicy : WorkloadPolicy) : Prop :=
  ∃ key ∈ wp.annotations, key ∉ newPolicy.annotations

/-- What a request may be that users add: it names no violation that is acknowledged by then, and
none that another annotation names, be it one they write with it or one that the turn in progress
has read. -/
def FreshRequest (s : PolicyRun) (annotations : GoMap String String) (key : String) : Prop :=
  ∀ id, acknowledgedID key = some id →
    (∀ a ∈ s.stored.status.acknowledgedViolations, a.id ≠ id) ∧
      (∀ key' ∈ annotations, acknowledgedID key' = some id → key' = key) ∧
      ∀ wp ∈ s.turn.base, ∀ key' ∈ wp.annotations, acknowledgedID key' = some id → key' = key

/-- Users ask for each violation once, and where a status patch that meets a request is carried out
the metadata patch of that turn is carried out too. All other patches may fail as they like, and
users may keep, change and remove the requests that are stored. -/
def AsksOnce (s : PolicyRun) : PolicyOp → Prop
  | .edit _ _ _ annotations =>
    ∀ key ∈ annotations, key ∈ s.stored.annotations ∨ FreshRequest s annotations key
  | .patchStatus i res =>
    ∀ wp newPolicy acks, s.turn = .listed wp →
      wp.recomputeStatus i.order i.nodes i.scrapedViolations i.now = .ok (newPolicy, acks) →
      Meets wp newPolicy → res ≠ .failed true
  | .patchMetadata res =>
    ∀ wp newPolicy, s.turn = .patched wp newPolicy → Meets wp newPolicy → res.applied = true
  | _ => True

/-- **The invariant.** `read` compares what is stored with what the turn in progress has read, since
users write between the two. -/
structure Orderly (s : PolicyRun) : Prop where
  one : OneRequestEach s.stored
  read : ∀ wp ∈ s.turn.base, OneRequestEach wp ∧
    ∀ key ∈ s.stored.annotations, ∀ key' ∈ wp.annotations, ∀ id,
      acknowledgedID key = some id → acknowledgedID key' = some id → key = key'
  listed : ∀ wp, s.turn = .listed wp → Consumed wp
  patched : ∀ wp newPolicy, s.turn = .patched wp newPolicy → ∀ key ∈ newPolicy.annotations,
    key ∈ wp.annotations ∧
      ∀ a ∈ s.stored.status.acknowledgedViolations, acknowledgedID key ≠ some a.id
  waiting : ∀ key ∈ s.stored.annotations, ∀ a ∈ s.stored.status.acknowledgedViolations,
    acknowledgedID key = some a.id → ∃ wp newPolicy, s.turn = .patched wp newPolicy ∧
      key ∈ wp.annotations ∧ key ∉ newPolicy.annotations

namespace Orderly

variable {s : PolicyRun}

theorem idle (hturn : s.turn = .idle) (hone : OneRequestEach s.stored)
    (hclean : Consumed s.stored) : Orderly s where
  one := hone
  read wp hwp := by simp [hturn, Turn.base] at hwp
  listed wp hlisted := by simp [hturn] at hlisted
  patched wp newPolicy hpatched := by simp [hturn] at hpatched
  waiting key hkey a ha hid := absurd hid (hclean key hkey a ha)

variable (h : Orderly s)

include h

theorem consumed (hturn : ∀ wp newPolicy, s.turn ≠ .patched wp newPolicy) : Consumed s.stored := by
  intro key hkey a ha hid
  obtain ⟨wp, newPolicy, hpatched, -⟩ := h.waiting key hkey a ha hid
  exact hturn wp newPolicy hpatched

theorem consumed_of_not_meets (hturn : s.turn = .patched wp newPolicy)
    (hmeets : ¬ Meets wp newPolicy) : Consumed s.stored := by
  intro key hkey a ha hid
  obtain ⟨wp', newPolicy', hpatched, hread, hgone⟩ := h.waiting key hkey a ha hid
  obtain ⟨rfl, rfl⟩ := Turn.patched.inj (hturn.symm.trans hpatched)
  exact hmeets ⟨key, hread, hgone⟩

/-- **An edit.** A kept annotation is as good as it was, an added one is fresh. -/
theorem edit
    (hedit : ∀ key ∈ annotations, key ∈ s.stored.annotations ∨ FreshRequest s annotations key)
    {wp' : WorkloadPolicy} (hkeys : wp'.annotations = annotations)
    (hstatus : wp'.status = s.stored.status) : Orderly (s.write wp') where
  one := by
    intro key hkey key' hkey' id hid hid'
    have hkey : key ∈ annotations := hkeys ▸ hkey
    have hkey' : key' ∈ annotations := hkeys ▸ hkey'
    rcases hedit key hkey with hold | hnew
    · rcases hedit key' hkey' with hold' | hnew'
      · exact h.one key hold key' hold' id hid hid'
      · exact (hnew' id hid').2.1 key hkey hid
    · exact ((hnew id hid).2.1 key' hkey' hid').symm
  read := by
    intro wp hwp
    refine ⟨(h.read wp hwp).1, ?_⟩
    intro key hkey key' hkey' id hid hid'
    rcases hedit key (hkeys ▸ hkey) with hold | hnew
    · exact (h.read wp hwp).2 key hold key' hkey' id hid hid'
    · exact ((hnew id hid).2.2 wp hwp key' hkey' hid').symm
  listed := h.listed
  patched := by
    intro wp newPolicy hturn key hkey
    refine ⟨(h.patched wp newPolicy hturn key hkey).1, fun a ha => ?_⟩
    exact (h.patched wp newPolicy hturn key hkey).2 a (hstatus ▸ ha)
  waiting := by
    intro key hkey a ha hid
    have ha : a ∈ s.stored.status.acknowledgedViolations := hstatus ▸ ha
    rcases hedit key (hkeys ▸ hkey) with hold | hnew
    · exact h.waiting key hold a ha hid
    · exact absurd rfl ((hnew a.id hid).1 a ha)

/-- What a status patch stores: a request that now names an acknowledged violation is one that the
turn has met. -/
theorem met_of_stored {i : TurnInput} (hturn : s.turn = .listed wp)
    (hcur : wp.status = s.stored.status)
    (hrec : Recomputed wp i.order i.scrapedViolations i.now newPolicy acks)
    (hkey : key ∈ s.stored.annotations) {a : AcknowledgedViolationRecord}
    (ha : a ∈ (patchStatus wp newPolicy s.stored).status.acknowledgedViolations)
    (hid : acknowledgedID key = some a.id) :
    key ∈ wp.annotations ∧ key ∉ newPolicy.annotations := by
  rw [patchStatus_acknowledged hcur] at ha
  obtain ⟨b, hb, rfl⟩ := List.mem_map.mp ha
  rcases hrec.acknowledged_cases hb with hold | ⟨key', hkey', hid', hgone⟩
  · have hclean := h.consumed fun wp' newPolicy' => by simp [hturn]
    exact absurd hid (hclean key hkey b (hcur ▸ hold))
  · obtain rfl := (h.read wp (by rw [hturn]; rfl)).2 key hkey key' hkey' b.id hid hid'
    exact ⟨hkey', hgone⟩

/-- **A status patch** that the controller takes for carried out. -/
theorem status {i : TurnInput} {logs appended : List AcknowledgedViolationRecord}
    (hturn : s.turn = .listed wp) (hcur : wp.status = s.stored.status)
    (hrec : Recomputed wp i.order i.scrapedViolations i.now newPolicy acks) :
    Orderly { s.write (patchStatus wp newPolicy s.stored) with
      acks := appended
      logs := logs
      turn := .patched wp newPolicy } where
  one := h.one
  read wp' hwp' := h.read wp' (by rw [hturn]; exact hwp')
  listed wp' hlisted := by simp at hlisted
  patched := by
    intro wp' newPolicy' hpatched key hkey
    obtain ⟨rfl, rfl⟩ := Turn.patched.inj hpatched
    refine ⟨hrec.mem_annotations hkey, fun a ha => ?_⟩
    have ha : a ∈ (patchStatus wp newPolicy s.stored).status.acknowledgedViolations := ha
    rw [patchStatus_acknowledged hcur] at ha
    obtain ⟨b, hb, rfl⟩ := List.mem_map.mp ha
    have hone := (h.read wp (by rw [hturn]; rfl)).1
    exact hrec.consumed (h.listed wp hturn) hone key hkey b hb
  waiting := by
    intro key hkey a ha hid
    obtain ⟨hread, hgone⟩ := h.met_of_stored hturn hcur hrec hkey ha hid
    exact ⟨wp, newPolicy, rfl, hread, hgone⟩

/-- **A metadata patch** that is carried out. What it leaves is of the new policy, or came after the
read. -/
theorem metadata (hturn : s.turn = .patched wp newPolicy) :
    OneRequestEach (patchMetadata wp newPolicy s.stored) ∧
      Consumed (patchMetadata wp newPolicy s.stored) := by
  obtain ⟨hone, hacross⟩ := h.read wp (by rw [hturn]; rfl)
  have hleaves := h.patched wp newPolicy hturn
  refine ⟨?_, ?_⟩
  · intro key hkey key' hkey' id hid hid'
    rcases mem_patchMetadata hkey with hnew | ⟨hold, -⟩
    · rcases mem_patchMetadata hkey' with hnew' | ⟨hold', -⟩
      · exact hone key (hleaves key hnew).1 key' (hleaves key' hnew').1 id hid hid'
      · exact (hacross key' hold' key (hleaves key hnew).1 id hid' hid).symm
    · rcases mem_patchMetadata hkey' with hnew' | ⟨hold', -⟩
      · exact hacross key hold key' (hleaves key' hnew').1 id hid hid'
      · exact h.one key hold key' hold' id hid hid'
  · intro key hkey a ha hid
    rcases mem_patchMetadata hkey with hnew | ⟨hold, hunread⟩
    · exact (hleaves key hnew).2 a ha hid
    · obtain ⟨wp', newPolicy', hpatched, hread, -⟩ := h.waiting key hold a ha hid
      obtain ⟨rfl, rfl⟩ := Turn.patched.inj (hturn.symm.trans hpatched)
      exact hunread hread

theorem step {op : PolicyOp} (hsound : SoundStep s op) (hread : ReadsStored s op)
    (honce : AsksOnce s op) : Orderly (s.step op) := by
  have heffect := PolicyRun.effect op s
  generalize s.step op = s' at heffect
  cases heffect with
  | turn t ht hpatched =>
    rcases ht with rfl | rfl
    · exact h
    · -- the turn is over: nothing was left to its metadata patch, or it had met nothing
      refine .idle rfl h.one ?_
      cases hturn : s.turn with
      | patched wp newPolicy =>
        refine h.consumed_of_not_meets hturn fun hmeets => ?_
        rcases hpatched wp newPolicy hturn with hsame | ⟨res, rfl, hfailed⟩
        · simp [hturn] at hsame
        · simp [honce wp newPolicy hturn hmeets] at hfailed
      | _ => exact h.consumed fun wp newPolicy => by simp [hturn]
  | edit mode rules generation annotations => exact h.edit honce rfl rfl
  | list lag hturn =>
    have hclean : Consumed s.stored := h.consumed fun wp newPolicy => by simp [hturn]
    refine ⟨h.one, ?_, ?_, ?_, fun key hkey a ha hid => absurd hid (hclean key hkey a ha)⟩
    · intro wp hwp
      obtain rfl : s.read lag = wp := Option.some.inj hwp
      rw [hread]
      exact ⟨h.one, h.one⟩
    · intro wp hlisted
      obtain rfl : s.read lag = wp := Turn.listed.inj hlisted
      rw [hread]
      exact hclean
    · intro wp newPolicy hpatched
      simp at hpatched
  | @status i wp newPolicy acks hturn hrec =>
    exact h.status hturn (hsound.good.current wp hturn) hrec
  | @statusUnseen i res wp newPolicy acks hturn hrec hres hok =>
    -- the metadata patch of this turn will not come, so the turn has met no request
    refine .idle rfl h.one fun key hkey a ha hid => ?_
    have hcur := hsound.good.current wp hturn
    obtain ⟨hmet, hgone⟩ := h.met_of_stored hturn hcur hrec hkey ha hid
    exact honce wp newPolicy acks hturn hok ⟨key, hmet, hgone⟩ hres
  | metadata res hturn => exact .idle rfl (h.metadata hturn).1 (h.metadata hturn).2

end Orderly

/-- After a turn in which both patches succeed, no annotation names a violation that is among the
acknowledged ones. -/
def ConsumesRequests (s : PolicyRun) (op : PolicyOp) : Prop :=
  ∀ wp newPolicy, s.turn = .patched wp newPolicy → op = .patchMetadata .ok →
    Consumed (s.step op).stored

theorem Orderly.consumes {s : PolicyRun} {op : PolicyOp} (h : Orderly s) :
    ConsumesRequests s op := by
  rintro wp newPolicy hturn rfl
  have hstep : (s.step (.patchMetadata .ok)).stored = patchMetadata wp newPolicy s.stored := by
    simp only [PolicyRun.step, hturn]
    rfl
  rw [hstep]
  exact (h.metadata hturn).2

/-- **Requests are consumed**, in every run from an empty status in which the controller reads what
is stored, users ask for each violation once, and a turn that has acknowledged is not cut off before
its metadata patch. -/
theorem requests_consumed {wp : WorkloadPolicy} (hempty : wp.status = {})
    (hone : OneRequestEach wp) {ops : List PolicyOp} (hlt : scrapedIn ops < 2 ^ 63)
    (hread : Along PolicyRun.step ReadsStored ops (.start wp))
    (honce : Along PolicyRun.step AsksOnce ops (.start wp)) :
    Along PolicyRun.step ConsumesRequests ops (.start wp) := by
  have hsound := along_sound_of_empty hempty hlt (hread.mono fun _ _ h => h.readsStatus)
  have hstart : Orderly (.start wp) := by
    refine .idle rfl hone fun key _ a ha => ?_
    have ha : a ∈ wp.status.acknowledgedViolations := ha
    simp [hempty] at ha
  exact along_of_inv (fun s op h hop => h.step hop.1 hop.2.1 hop.2.2)
    (fun s op h _ => h.consumes) hstart (hsound.and (hread.and honce))

namespace Sample

def acknowledging (res : PatchResult) : List PolicyOp :=
  reported ++
    [.edit .protect sealed.rulesByContainer 1 (AList.singleton (request "0") "known"),
      .list 0, .patchStatus (turn []) .ok, .patchMetadata res]

/-- The metadata patch fails; the next turn succeeds, and the request is still there. -/
theorem left_over :
    let s := run PolicyRun.step
      (acknowledging (.failed false) ++ [.list 0, .patchStatus (turn []) .ok]) (.start sealed)
    (∃ wp newPolicy, s.turn = .patched wp newPolicy) ∧
      request "0" ∈ (s.step (.patchMetadata .ok)).stored.annotations ∧
      acknowledgedID (request "0") = some 0 ∧
      (s.step (.patchMetadata .ok)).stored.status.acknowledgedViolations.map
        AcknowledgedViolationRecord.id = [0] :=
  ⟨⟨_, _, rfl⟩, by decide +kernel, by decide +kernel, by decide +kernel⟩

theorem requests_consumed_acknowledging :
    Along PolicyRun.step ConsumesRequests (acknowledging .ok) (.start sealed) := by
  refine requests_consumed rfl ?_ (by decide) ?_ ?_
  · intro key hkey
    exact absurd hkey (AList.notMem_empty key)
  · exact ⟨rfl, trivial, trivial, trivial, rfl, trivial, trivial, trivial⟩
  · have hfresh : ∀ key ∈ (AList.singleton (request "0") "known" : GoMap String String),
        key = request "0" := by
      intro key hkey
      simpa [AList.mem_keys] using hkey
    have hstatus : ∀ (s : PolicyRun) i, AsksOnce s (.patchStatus i .ok) := by
      intro s i wp newPolicy acks _ _ _
      simp
    have hmetadata : ∀ s : PolicyRun, AsksOnce s (.patchMetadata .ok) := fun _ _ _ _ _ => rfl
    -- no patch fails, and the request is the only one
    refine ⟨trivial, hstatus _ _, hmetadata _, ?_, trivial, hstatus _ _, hmetadata _, trivial⟩
    intro key hkey
    refine .inr fun id hid => ⟨?_, ?_, ?_⟩
    · intro a ha
      cases ha
    · intro key' hkey' _
      rw [hfresh key hkey, hfresh key' hkey']
    · intro wp hwp
      cases hwp

end Sample

end RuntimeEnforcer.Api
