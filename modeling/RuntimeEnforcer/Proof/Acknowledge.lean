import RuntimeEnforcer.Proof.PolicyVersions

/-!
# Acknowledgements

A request is met in two writes: the status patch moves the record, the metadata patch then takes the
annotation away. Between them anything can fail, and the next turn starts over from what is stored.
A record that was moved is no longer among the violations and its id is never given again, so it is
moved once and logged at most once, whatever fails.

The metadata patch names the annotations that were met one by one, unless none are left: then it
removes them all, and with them those that came after the read. `Undisturbed` rules that out.
-/

set_option autoImplicit false

namespace RuntimeEnforcer.Api

open Lib

/-- The id of an acknowledged violation. -/
def AcknowledgedViolationRecord.id (a : AcknowledgedViolationRecord) : Int := a.violation.id

/-! ## Which annotations a recomputation drops -/

variable {key : String} {newPolicy wp : WorkloadPolicy} {scraped : List ViolationRecord}
  {acks : List AcknowledgedViolationRecord} {order : Order String String} {now : Time}

theorem lookup_dropMet {requests : GoMap Int AnnotationInfo} {violations : List ViolationRecord}
    {annotations : GoMap String String} {reason : String} (h : annotations.lookup key = some reason)
    (hgone : (dropMet requests violations annotations).lookup key = none) :
    ∃ v ∈ violations, ∃ info, requests.lookup v.id = some info ∧ info.annotationKey = key := by
  induction violations generalizing annotations with
  | nil => simp [dropMet, h] at hgone
  | cons v violations ih =>
    rw [dropMet, List.foldl_cons] at hgone
    cases hreq : requests.lookup v.id with
    | none =>
      rw [hreq] at hgone
      obtain ⟨w, hw, hinfo⟩ := ih h hgone
      exact ⟨w, List.mem_cons_of_mem v hw, hinfo⟩
    | some info =>
      by_cases hkey : info.annotationKey = key
      · exact ⟨v, List.mem_cons_self, info, hreq, hkey⟩
      · rw [hreq] at hgone
        have hstill : (annotations.erase info.annotationKey).lookup key = some reason := by
          rw [GoMap.lookup_erase_eq, if_neg (fun heq => hkey heq.symm), h]
        obtain ⟨w, hw, hinfo⟩ := ih hstill hgone
        exact ⟨w, List.mem_cons_of_mem v hw, hinfo⟩

theorem Recomputed.met (h : Recomputed wp order scraped now newPolicy acks)
    (hkey : key ∈ wp.annotations) (hgone : key ∉ newPolicy.annotations) :
    ∃ a ∈ acks, acknowledgedID key = some a.id := by
  obtain ⟨reason, hreason⟩ := Option.isSome_iff_exists.mp (AList.lookup_isSome.mpr hkey)
  have hnone := AList.lookup_eq_none.mpr hgone
  rw [h.annotations] at hnone
  obtain ⟨v, hv, info, hreq, rfl⟩ := lookup_dropMet hreason hnone
  refine ⟨{ violation := v, reason := info.reason, acknowledgedAt := now }, ?_,
    (WorkloadPolicy.requests_spec hreq).2⟩
  rw [h.acks]
  exact List.mem_filterMap.mpr ⟨v, hv, by simp [acknowledgeAs, hreq]⟩

/-! ## What was appended is there, or was trimmed -/

/-- The list has the entry, or a hundred entries that are at least as recent. -/
def Received (l : List AcknowledgedViolationRecord) (a : AcknowledgedViolationRecord) : Prop :=
  a.stored ∈ l ∨
    l.length = maxViolationRecords ∧ ∀ b ∈ l, Time.stored a.acknowledgedAt ≤ b.acknowledgedAt

/-- The list that is stored when `new` is appended to `old`. -/
def appended (old new : List AcknowledgedViolationRecord) : List AcknowledgedViolationRecord :=
  (newest AcknowledgedViolationRecord.acknowledgedAt maxViolationRecords (old ++ new)).map
    AcknowledgedViolationRecord.stored

section Received

variable {old new : List AcknowledgedViolationRecord} {a : AcknowledgedViolationRecord}

theorem received_of_mem (h : a ∈ old ++ new) : Received (appended old new) a := by
  by_cases hkept : a ∈ newest AcknowledgedViolationRecord.acknowledgedAt maxViolationRecords
      (old ++ new)
  · exact .inl (List.mem_map_of_mem hkept)
  · obtain ⟨hlen, hnewer⟩ := full_of_not_mem_newest h hkept
    refine .inr ⟨by rw [appended, List.length_map, hlen], ?_⟩
    intro b hb
    obtain ⟨y, hy, rfl⟩ := List.mem_map.mp hb
    exact Time.stored_mono (hnewer y hy)

theorem Received.append (h : Received old a) : Received (appended old new) a := by
  rcases h with hmem | ⟨hlen, hnewer⟩
  · rcases received_of_mem (List.mem_append_left new hmem) with hmem' | ⟨hlen, hnewer⟩
    · exact .inl (a.stored_stored ▸ hmem')
    · refine .inr ⟨hlen, fun b hb => ?_⟩
      have hle := hnewer b hb
      rwa [AcknowledgedViolationRecord.stored, Time.stored_stored] at hle
  · -- the hundred entries are still as recent as `a`, so what is kept of the longer list is too
    have hcount : maxViolationRecords ≤ (old ++ new).countP
        fun b => Time.stored a.acknowledgedAt ≤ b.acknowledgedAt := by
      have hall : old.countP (fun b => Time.stored a.acknowledgedAt ≤ b.acknowledgedAt) =
          old.length := List.countP_eq_length.mpr fun b hb => by simpa using hnewer b hb
      rw [List.countP_append, hall, hlen]
      omega
    obtain ⟨hfull, hge⟩ := newest_of_countP_le hcount
    refine .inr ⟨by rw [appended, List.length_map, hfull], ?_⟩
    intro b hb
    obtain ⟨y, hy, rfl⟩ := List.mem_map.mp hb
    have hle := Time.stored_mono (hge y hy)
    rwa [Time.stored_stored] at hle

end Received

theorem Recomputed.appends (h : Recomputed wp order scraped now newPolicy acks)
    (hinv : StatusInv wp.status) :
    newPolicy.status.acknowledgedViolations =
      newest AcknowledgedViolationRecord.acknowledgedAt maxViolationRecords
        (wp.status.acknowledgedViolations ++ acks) := by
  rw [h.acknowledgedViolations]
  split
  · next hnone =>
    have hacks : acks = [] := by
      rw [h.acks, List.filterMap_eq_nil_iff]
      intro v _
      simp [acknowledgeAs, lookup_of_no_requests hnone]
    rw [hacks, List.append_nil, newest_eq_self hinv.acknowledged_sorted hinv.acknowledged_le]
  · rfl

/-! ## Acknowledged once -/

variable {s : PolicyRun} {op : PolicyOp}

/-- What was appended has ids of its own, and is gone from the violations; what was logged was
appended. -/
structure AckInv (s : PolicyRun) : Prop where
  nodup : (s.acks.map AcknowledgedViolationRecord.id).Nodup
  below : ∀ a ∈ s.acks, a.id < s.stored.status.violationCount
  gone : ∀ a ∈ s.acks, ∀ r ∈ s.stored.status.violations, r.id ≠ a.id
  received : ∀ a ∈ s.acks, Received s.stored.status.acknowledgedViolations a
  logged : s.logs.Sublist s.acks

theorem AckInv.start (wp : WorkloadPolicy) : AckInv (.start wp) where
  nodup := List.nodup_nil
  below := by
    intro a ha
    cases ha
  gone := by
    intro a ha
    cases ha
  received := by
    intro a ha
    cases ha
  logged := List.Sublist.refl _

theorem AckInv.congr {s' : PolicyRun} (h : AckInv s) (hstatus : s'.stored.status = s.stored.status)
    (hacks : s'.acks = s.acks) (hlogs : s'.logs = s.logs) : AckInv s' := by
  refine ⟨?_, ?_, ?_, ?_, ?_⟩
  · rw [hacks]
    exact h.nodup
  · rw [hacks, hstatus]
    exact h.below
  · rw [hacks, hstatus]
    exact h.gone
  · rw [hacks, hstatus]
    exact h.received
  · rw [hacks, hlogs]
    exact h.logged

theorem AckInv.not_acked (h : AckInv s) (hgood : Good s)
    (hlt : s.stored.status.violationCount + scraped.length < 2 ^ 63) {q : ViolationRecord}
    (hq : q ∈ (s.stored.status.mergeLoop scraped).violations) : ∀ a ∈ s.acks, q.id ≠ a.id := by
  intro a ha
  have hmerge := s.stored.status.merges hgood.inv.records.keys hgood.inv.count_nonneg hlt
  rcases hmerge.continued.new q hq with ⟨r, hr, hcont⟩ | hge
  · rw [hcont.id]
    exact h.gone a ha r hr
  · have hbelow := h.below a ha
    have hge : s.stored.status.violationCount ≤ q.id := hge
    omega

theorem Recomputed.perm_live (h : Recomputed wp order scraped now newPolicy acks) :
    (newPolicy.status.violations ++ acks.map AcknowledgedViolationRecord.violation).Perm
      (wp.live scraped) := by
  rw [h.acks, h.violations]
  exact kept_append_acknowledged_perm (wp.requests order) now (wp.live scraped)

/-- **A status patch that is carried out.** -/
theorem AckInv.stores (h : AckInv s) (hgood : Good s) {i : TurnInput}
    {acknowledged : List AcknowledgedViolationRecord} (hturn : s.turn = .listed wp)
    (hlt : s.stored.status.violationCount + i.scrapedViolations.length < 2 ^ 63)
    (hrec : Recomputed wp i.order i.scrapedViolations i.now newPolicy acknowledged)
    {logs : List AcknowledgedViolationRecord} (hlogs : logs.Sublist (s.acks ++ acknowledged))
    {t : Turn} :
    AckInv
      { s.write (patchStatus wp newPolicy s.stored) with
        acks := s.acks ++ acknowledged
        logs := logs
        turn := t } := by
  have hcur := hgood.current wp hturn
  obtain ⟨hinv, hcount⟩ := hgood.stores hturn hlt hrec
  have hwp : StatusInv wp.status := hcur ▸ hgood.inv
  have hmerge := wp.status.merges hwp.records.keys hwp.count_nonneg (hcur ▸ hlt)
  have hrecords := hmerge.records _ hwp.records
  have hmerged : ∀ q ∈ newPolicy.status.violations ++
      acknowledged.map AcknowledgedViolationRecord.violation,
      q ∈ (wp.status.mergeLoop i.scrapedViolations).violations := fun q hq =>
    (wp.live_subperm i.scrapedViolations).subset (hrec.perm_live.mem_iff.mp hq)
  have hfresh : ∀ q ∈ newPolicy.status.violations ++
      acknowledged.map AcknowledgedViolationRecord.violation, ∀ a ∈ s.acks, q.id ≠ a.id :=
    fun q hq => h.not_acked hgood hlt (hcur ▸ hmerged q hq)
  have hids : ((newPolicy.status.violations ++
      acknowledged.map AcknowledgedViolationRecord.violation).map ViolationRecord.id).Nodup := by
    have hlive := (hrecords.subperm (wp.live_subperm i.scrapedViolations)
      (List.Subperm.refl _)).ids
    rw [List.map_append, List.nodup_append] at hlive
    exact (hrec.perm_live.map _).nodup_iff.mpr hlive.1
  rw [List.map_append, List.nodup_append, List.map_map] at hids
  refine ⟨?_, ?_, ?_, ?_, hlogs⟩
  · rw [List.map_append, List.nodup_append]
    refine ⟨h.nodup, hids.2.1, ?_⟩
    intro x hx y hy
    obtain ⟨a, ha, rfl⟩ := List.mem_map.mp hx
    obtain ⟨b, hb, rfl⟩ := List.mem_map.mp hy
    exact (hfresh b.violation (List.mem_append_right _ (List.mem_map_of_mem hb)) a ha).symm
  · intro a ha
    show a.id < (patchStatus wp newPolicy s.stored).status.violationCount
    rcases List.mem_append.mp ha with ha | ha
    · have := h.below a ha
      omega
    · have hq := hmerged a.violation (List.mem_append_right _ (List.mem_map_of_mem ha))
      rw [patchStatus_count (congrArg _ hcur), hrec.count]
      exact (hrecords.each a.violation (List.mem_append_left _ hq)).id_lt
  · intro a ha r hr
    have hr : r ∈ (patchStatus wp newPolicy s.stored).status.violations := hr
    rw [patchStatus_violations hcur] at hr
    obtain ⟨q, hq, rfl⟩ := List.mem_map.mp hr
    rcases List.mem_append.mp ha with ha | ha
    · exact hfresh q (List.mem_append_left _ hq) a ha
    · exact hids.2.2 q.id (List.mem_map_of_mem hq) a.id (List.mem_map.mpr ⟨a, ha, rfl⟩)
  · intro a ha
    show Received (patchStatus wp newPolicy s.stored).status.acknowledgedViolations a
    rw [patchStatus_acknowledged hcur, hrec.appends hwp, hcur]
    rcases List.mem_append.mp ha with ha | ha
    · exact (h.received a ha).append
    · exact received_of_mem (List.mem_append_right _ ha)

theorem AckInv.step (h : AckInv s) (hop : SoundStep s op) : AckInv (s.step op) := by
  have heffect := PolicyRun.effect op s
  have hlt := hop.noWrap
  generalize s.step op = s' at heffect
  cases heffect with
  | turn t ht => exact h.congr rfl rfl rfl
  | edit => exact h.congr rfl rfl rfl
  | list lag hturn => exact h.congr rfl rfl rfl
  | status i hturn hrec =>
    exact h.stores hop.good hturn hlt hrec (h.logged.append (List.Sublist.refl _))
  | statusUnseen i res hturn hrec =>
    exact h.stores hop.good hturn hlt hrec (h.logged.trans (List.sublist_append_left _ _))
  | metadata res hturn => exact h.congr rfl rfl rfl

/-! ## Which annotations go -/

/-- What the controller has in hand is the policy as it was stored when it read it. -/
def ReadsStored (s : PolicyRun) : PolicyOp → Prop
  | .list lag => s.read lag = s.stored
  | _ => True

theorem ReadsStored.readsStatus (h : ReadsStored s op) : ReadsStatus s op := by
  cases op with
  | list lag => exact congrArg WorkloadPolicy.status h
  | _ => trivial

/-- The annotations that a turn on `wp` finds at its end do not make it drop one it has not met:
`wp` had none, or one that is no request, or has all those that are there. -/
def Undisturbed (wp : WorkloadPolicy) (annotations : GoMap String String) : Prop :=
  wp.annotations.entries = [] ∨ (∃ key ∈ wp.annotations, acknowledgedID key = none) ∨
    ∀ key ∈ annotations, key ∈ wp.annotations

def Turn.base : Turn → Option WorkloadPolicy
  | .idle => none
  | .listed wp => some wp
  | .patched wp _ => some wp

/-- Users leave the annotations undisturbed while a turn is on. -/
def Quiet (s : PolicyRun) : PolicyOp → Prop
  | .edit _ _ _ annotations => ∀ wp ∈ s.turn.base, Undisturbed wp annotations
  | _ => True

theorem Quiet.of_idle (h : s.turn = .idle) : Quiet s op := by
  cases op with
  | edit =>
    intro wp hwp
    simp [h, Turn.base] at hwp
  | _ => trivial

/-- The turn's annotations are undisturbed, and those it has dropped were met. -/
structure TurnInv (s : PolicyRun) : Prop where
  undisturbed : ∀ wp ∈ s.turn.base, Undisturbed wp s.stored.annotations
  met : ∀ wp newPolicy, s.turn = .patched wp newPolicy → ∀ key ∈ wp.annotations,
    key ∉ newPolicy.annotations → ∃ a ∈ s.acks, acknowledgedID key = some a.id

theorem TurnInv.idle (h : s.turn = .idle) : TurnInv s := by
  refine ⟨?_, ?_⟩
  · intro wp hwp
    simp [h, Turn.base] at hwp
  · intro wp newPolicy hturn
    simp [h] at hturn

theorem TurnInv.step (h : TurnInv s) (hread : ReadsStored s op) (hquiet : Quiet s op) :
    TurnInv (s.step op) := by
  have heffect := PolicyRun.effect op s
  generalize s.step op = s' at heffect
  cases heffect with
  | turn t ht =>
    rcases ht with rfl | rfl
    · exact h
    · exact .idle rfl
  | edit mode rules generation annotations => exact ⟨hquiet, h.met⟩
  | list lag hturn =>
    refine ⟨?_, ?_⟩
    · intro wp hwp
      obtain rfl : s.read lag = wp := Option.some.inj hwp
      refine .inr (.inr fun key hkey => ?_)
      rw [hread]
      exact hkey
    · intro wp newPolicy hpatched
      cases hpatched
  | @status i wp newPolicy acknowledged hturn hrec =>
    refine ⟨?_, ?_⟩
    · intro wp' hwp'
      exact h.undisturbed wp' (by rw [hturn]; exact hwp')
    · intro wp' newPolicy' hpatched key hkey hgone
      obtain ⟨rfl, rfl⟩ := Turn.patched.inj hpatched
      obtain ⟨a, ha, hid⟩ := hrec.met hkey hgone
      exact ⟨a, List.mem_append_right _ ha, hid⟩
  | statusUnseen i res hturn hrec => exact .idle rfl
  | metadata res hturn => exact .idle rfl

def PolicyOp.byUser : PolicyOp → Bool
  | .edit .. => true
  | _ => false

/-- Every annotation that the controller takes away was a request, and its violation was
acknowledged. -/
def RemovesMet (s : PolicyRun) (op : PolicyOp) : Prop :=
  op.byUser = false → ∀ key ∈ s.stored.annotations, key ∉ (s.step op).stored.annotations →
    ∃ a ∈ s.acks, acknowledgedID key = some a.id

/-- **A metadata patch.** -/
theorem TurnInv.removes (h : TurnInv s) (hturn : s.turn = .patched wp newPolicy)
    (hkey : key ∈ s.stored.annotations)
    (hgone : key ∉ (patchMetadata wp newPolicy s.stored).annotations) :
    ∃ a ∈ s.acks, acknowledgedID key = some a.id := by
  by_cases hnull : newPolicy.annotations.entries = [] ∧ wp.annotations.entries ≠ []
  · -- the patch names the annotations as a whole
    have hnone : ∀ k, k ∉ newPolicy.annotations := by
      intro k hk
      obtain ⟨v, hv⟩ := Option.isSome_iff_exists.mp (AList.lookup_isSome.mpr hk)
      rw [← GoMap.mem_entries, hnull.1] at hv
      exact List.not_mem_nil hv
    rcases h.undisturbed wp (by rw [hturn]; rfl) with hempty | ⟨k, hk, hreq⟩ | hall
    · exact absurd hempty hnull.2
    · obtain ⟨a, ha, hid⟩ := h.met wp newPolicy hturn k hk (hnone k)
      rw [hreq] at hid
      cases hid
    · exact h.met wp newPolicy hturn key (hall key hkey) (hnone key)
  · -- the patch names the annotations that were dropped
    have hkeys : newPolicy.annotations.entries ≠ [] ∨ wp.annotations.entries = [] := by
      by_cases hn : newPolicy.annotations.entries = []
      · exact .inr (Classical.not_not.mp fun hw => hnull ⟨hn, hw⟩)
      · exact .inl hn
    have hlost := AList.lookup_eq_none.mpr hgone
    by_cases hsame : newPolicy.annotations.lookup key = wp.annotations.lookup key
    · rw [patchMetadata, lookup_patchMap_of_eq hkeys hsame] at hlost
      exact absurd hkey (AList.lookup_eq_none.mp hlost)
    · rw [patchMetadata, lookup_patchMap (patchValue_self none none) hkeys, patchValue,
        if_neg hsame] at hlost
      rw [hlost] at hsame
      have hread : key ∈ wp.annotations :=
        AList.lookup_isSome.mp (Option.isSome_iff_ne_none.mpr fun hnone => hsame hnone.symm)
      exact h.met wp newPolicy hturn key hread (AList.lookup_eq_none.mp hlost)

theorem TurnInv.removesMet (h : TurnInv s) : RemovesMet s op := by
  intro hop key hkey hgone
  have heffect := PolicyRun.effect op s
  generalize s.step op = s' at heffect hgone
  cases heffect with
  | turn t ht => exact absurd hkey hgone
  | edit => cases hop
  | list lag hturn => exact absurd hkey hgone
  | status i hturn hrec => exact absurd hkey hgone
  | statusUnseen i res hturn hrec => exact absurd hkey hgone
  | metadata res hturn => exact h.removes hturn hkey hgone

/-! ## Whole runs -/

/-- **Each violation is acknowledged and logged at most once**, in every run in which the controller
reads what is stored, **and no request is dropped** if users also leave its annotations
undisturbed. -/
theorem acknowledged_once {wp : WorkloadPolicy} (hempty : wp.status = {}) {ops : List PolicyOp}
    (hlt : scrapedIn ops < 2 ^ 63) (hread : Along PolicyRun.step ReadsStored ops (.start wp)) :
    let s := run PolicyRun.step ops (.start wp)
    (s.acks.map AcknowledgedViolationRecord.id).Nodup ∧
      (s.logs.map AcknowledgedViolationRecord.id).Nodup ∧
      (∀ a ∈ s.acks, Received s.stored.status.acknowledgedViolations a) ∧
      (Along PolicyRun.step Quiet ops (.start wp) →
        Along PolicyRun.step RemovesMet ops (.start wp)) := by
  intro s
  have hsound := along_sound_of_empty hempty hlt (hread.mono fun _ _ h => h.readsStatus)
  have hack : AckInv s := run_inv (fun s op h hop => AckInv.step h hop) (AckInv.start wp) hsound
  have hlogs : (s.logs.map AcknowledgedViolationRecord.id).Nodup :=
    hack.nodup.sublist (hack.logged.map _)
  refine ⟨hack.nodup, hlogs, hack.received, fun hquiet => ?_⟩
  exact along_of_inv (fun s op h hop => TurnInv.step h hop.1 hop.2) (fun s op h _ => h.removesMet)
    (TurnInv.idle rfl) (hread.and hquiet)

namespace Sample

def request (id : String) : String := violationAcknowledgePrefix ++ id

def reported : List PolicyOp :=
  [.list 0, .patchStatus (turn [ran [1] 5, ran [2] 7]) .ok, .patchMetadata .ok]

/-- The first is to be acknowledged; the status patch is carried out, its answer lost. The second
request comes while no turn is on. -/
def retried : List PolicyOp :=
  reported ++
    [.edit .protect sealed.rulesByContainer 1 (AList.singleton (request "0") "known"),
      .list 0, .patchStatus (turn []) (.failed true),
      .edit .protect sealed.rulesByContainer 1
        ((AList.singleton (request "0") "known").insert (request "1") "known"),
      .list 0, .patchStatus (turn []) .ok, .patchMetadata (.failed false)]

theorem acknowledged_once_retried :
    let s := run PolicyRun.step retried (.start sealed)
    s.acks.map AcknowledgedViolationRecord.id = [0, 1] ∧
      (s.acks.map AcknowledgedViolationRecord.id).Nodup ∧
      (s.logs.map AcknowledgedViolationRecord.id).Nodup ∧
      (∀ a ∈ s.acks, Received s.stored.status.acknowledgedViolations a) ∧
      Along PolicyRun.step RemovesMet retried (.start sealed) := by
  have hread : Along PolicyRun.step ReadsStored retried (.start sealed) :=
    ⟨rfl, trivial, trivial, trivial, rfl, trivial, trivial, rfl, trivial, trivial, trivial⟩
  have hquiet : Along PolicyRun.step Quiet retried (.start sealed) :=
    ⟨trivial, trivial, trivial, .of_idle rfl, trivial, trivial, .of_idle rfl, trivial, trivial,
      trivial, trivial⟩
  obtain ⟨hacks, hlogs, hreceived, hmet⟩ := acknowledged_once rfl (by decide) hread
  exact ⟨by decide +kernel, hacks, hlogs, hreceived, hmet hquiet⟩

/-- The first is being acknowledged, and the second request comes before the annotation of the first
is taken away. -/
def disturbed : List PolicyOp :=
  reported ++
    [.edit .protect sealed.rulesByContainer 1 (AList.singleton (request "0") "known"),
      .list 0, .patchStatus (turn []) .ok,
      .edit .protect sealed.rulesByContainer 1
        ((AList.singleton (request "0") "known").insert (request "1") "known")]

/-- The metadata patch removes both requests; the second is not met, and its violation is still
there. -/
theorem request_dropped :
    let s := run PolicyRun.step disturbed (.start sealed)
    Along PolicyRun.step ReadsStored (disturbed ++ [.patchMetadata .ok]) (.start sealed) ∧
      request "1" ∈ s.stored.annotations ∧
      request "1" ∉ (s.step (.patchMetadata .ok)).stored.annotations ∧
      (∃ r ∈ s.stored.status.violations, acknowledgedID (request "1") = some r.id) ∧
      ¬ ∃ a ∈ s.acks, acknowledgedID (request "1") = some a.id := by
  refine ⟨?_, by decide +kernel, by decide +kernel, by decide +kernel, by decide +kernel⟩
  exact ⟨rfl, trivial, trivial, trivial, rfl, trivial, trivial, trivial, trivial⟩

end Sample

end RuntimeEnforcer.Api
