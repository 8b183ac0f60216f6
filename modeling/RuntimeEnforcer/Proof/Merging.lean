import RuntimeEnforcer.Api.Violations
import RuntimeEnforcer.Proof.NodeLists

/-!
# What one recomputation does to the records

The merge finds a record through a map from its key to its place. As long as the map says where each
key stands, one round is `absorb`, which knows no places; everything below is about `absorb`.

Two things are said of a whole merge. `Records`: the records have distinct keys and distinct ids,
the ids are below the counter, and what was acknowledged keeps its ids for itself. `Continued`:
every record that was there is still there under its id and key, and every other has an id no one
has had.
Trimming, clearing and acknowledging only choose among the records, so `Records` is kept by all of
them; `recomputeStatus_ok` says what each chooses.
-/

set_option autoImplicit false

namespace RuntimeEnforcer.Api

open Lib

/-! ## One scraped violation -/

variable {m : MergeState} {v : ViolationRecord}

@[simp] theorem ViolationRecord.seenAgain_key (r v : ViolationRecord) :
    (r.seenAgain v).key = r.key := rfl

@[simp] theorem ViolationRecord.firstSeen_key (v : ViolationRecord) (id : Int) :
    (v.firstSeen id).key = v.key := rfl

@[simp] theorem ViolationRecord.firstSeen_id (v : ViolationRecord) (id : Int) :
    (v.firstSeen id).id = id := rfl

/-- The record after a scraped violation of key `v.key`. -/
def ViolationRecord.refresh (v r : ViolationRecord) : ViolationRecord :=
  if r.key = v.key then r.seenAgain v else r

@[simp] theorem ViolationRecord.refresh_key (v r : ViolationRecord) :
    (v.refresh r).key = r.key := by
  unfold ViolationRecord.refresh
  split <;> rfl

@[simp] theorem ViolationRecord.refresh_id (v r : ViolationRecord) : (v.refresh r).id = r.id := by
  unfold ViolationRecord.refresh
  split <;> rfl

/-- A scraped violation put among the records. -/
def absorb (count : Int) (l : List ViolationRecord) (v : ViolationRecord) :
    List ViolationRecord :=
  if v.key ∈ l.map ViolationRecord.key then l.map v.refresh else l ++ [v.firstSeen count]

/-- The index says where each key stands. -/
def MergeState.Indexed (m : MergeState) : Prop :=
  Indexes (m.violations.map ViolationRecord.key) m.indexByKey

theorem indexByKey_indexes {l : List ViolationRecord} (h : (l.map ViolationRecord.key).Nodup) :
    Indexes (l.map ViolationRecord.key) (indexByKey l) := by
  induction l using List.reverseRecOn with
  | nil => exact Indexes.empty
  | append_singleton l r ih =>
    have hpush : indexByKey (l ++ [r]) = (indexByKey l).insert r.key l.length := by
      simp [indexByKey, List.zipIdx_append, List.foldl_append]
    rw [← List.concat_eq_append, List.map_concat, List.nodup_concat] at h
    have hone := (ih h.2).push h.1
    rw [List.length_map] at hone
    rw [hpush, List.map_append]
    exact hone

theorem MergeState.modify_eq_map (h : m.Indexed) {idx : Nat}
    (hidx : m.indexByKey.lookup v.key = some idx) :
    m.violations.modify idx (·.seenAgain v) = m.violations.map v.refresh := by
  refine List.ext_getElem? fun j => ?_
  rw [List.getElem?_modify, List.getElem?_map]
  cases hr : m.violations[j]? with
  | none => rfl
  | some r =>
    have hkey : r.key = v.key ↔ idx = j := by
      have hj := h v.key j
      rw [hidx, List.getElem?_map, hr] at hj
      simp only [Option.map_some, Option.some.injEq] at hj
      exact hj.symm
    by_cases hrk : r.key = v.key
    · simp [ViolationRecord.refresh, hrk, hkey.mp hrk]
    · have hne : idx ≠ j := fun hj => hrk (hkey.mpr hj)
      simp [ViolationRecord.refresh, hrk, hne]

theorem MergeState.mergeViolation_violations (h : m.Indexed) (v : ViolationRecord) :
    (m.mergeViolation v).violations = absorb m.violationCount m.violations v := by
  unfold mergeViolation absorb
  cases hidx : m.indexByKey.lookup v.key with
  | none => rw [if_neg (h.lookup_eq_none.mp hidx)]
  | some idx =>
    have hmem : v.key ∈ m.violations.map ViolationRecord.key :=
      List.mem_of_getElem? ((h v.key idx).mp hidx)
    rw [if_pos hmem]
    exact MergeState.modify_eq_map h hidx

theorem MergeState.mergeViolation_count (m : MergeState) (v : ViolationRecord) :
    (m.mergeViolation v).violationCount = int64Succ m.violationCount := by
  unfold mergeViolation
  split <;> rfl

theorem MergeState.Indexed.mergeViolation (h : m.Indexed) (v : ViolationRecord) :
    (m.mergeViolation v).Indexed := by
  have hviol := MergeState.mergeViolation_violations h v
  unfold Indexed
  rw [hviol, absorb]
  unfold MergeState.mergeViolation
  cases hidx : m.indexByKey.lookup v.key with
  | none =>
    rw [if_neg (h.lookup_eq_none.mp hidx), List.map_append]
    have hpush := Indexes.push h (h.lookup_eq_none.mp hidx)
    rw [List.length_map] at hpush
    exact hpush
  | some idx =>
    rw [if_pos (List.mem_of_getElem? ((h v.key idx).mp hidx))]
    have hkeys : (m.violations.map v.refresh).map ViolationRecord.key =
        m.violations.map ViolationRecord.key := by simp [Function.comp_def]
    rw [hkeys]
    exact h

/-! ## The records as a whole -/

variable {r : ViolationRecord} {acked : List ViolationRecord} {count : Int}

/-- A record whose id and number of occurrences the counter has reached. -/
structure ViolationRecord.Sane (r : ViolationRecord) (count : Int) : Prop where
  id_nonneg : 0 ≤ r.id
  id_lt : r.id < count
  occurs : 1 ≤ r.occurrences
  occurs_le : r.occurrences ≤ count
  observed : r.firstObservedTimestamp ≤ r.lastObservedTimestamp

theorem ViolationRecord.Sane.mono {c c' : Int} (h : r.Sane c) (hc : c ≤ c') : r.Sane c' :=
  { h with id_lt := by have := h.id_lt; omega, occurs_le := h.occurs_le.trans hc }

/-- The live records and the acknowledged ones. -/
structure Records (count : Int) (live acked : List ViolationRecord) : Prop where
  keys : (live.map ViolationRecord.key).Nodup
  ids : ((live ++ acked).map ViolationRecord.id).Nodup
  each : ∀ r ∈ live ++ acked, r.Sane count

theorem Records.empty : Records 0 [] [] := ⟨List.nodup_nil, List.nodup_nil, by simp⟩

theorem Records.subperm {live live' acked' : List ViolationRecord} (h : Records count live acked)
    (hlive : live'.Subperm live) (hacked : acked'.Subperm acked) : Records count live' acked' := by
  have hall : (live' ++ acked').Subperm (live ++ acked) := by
    obtain ⟨l₁, hperm₁, hsub₁⟩ := hlive
    obtain ⟨l₂, hperm₂, hsub₂⟩ := hacked
    exact ⟨l₁ ++ l₂, hperm₁.append hperm₂, hsub₁.append hsub₂⟩
  have nodup : ∀ {β : Type} (f : ViolationRecord → β) {l l' : List ViolationRecord},
      l'.Subperm l → (l.map f).Nodup → (l'.map f).Nodup := by
    intro β f l l' hsub hl
    obtain ⟨l₁, hperm, hsublist⟩ := hsub
    exact (hperm.map f).nodup_iff.mp (hl.sublist (hsublist.map f))
  exact ⟨nodup _ hlive h.keys, nodup _ hall h.ids, fun r hr => h.each r (hall.subset hr)⟩

theorem Records.move {live kept moved : List ViolationRecord} (h : Records count live acked)
    (hperm : (kept ++ moved).Perm live) : Records count kept (acked ++ moved) := by
  have hall : (kept ++ (acked ++ moved)).Perm (live ++ acked) := by
    have hswap : (acked ++ moved).Perm (moved ++ acked) := List.perm_append_comm
    have hassoc := (hswap.append_left kept).trans
      (List.Perm.of_eq (List.append_assoc kept moved acked).symm)
    exact hassoc.trans (hperm.append_right acked)
  have hkept : (kept.map ViolationRecord.key).Sublist ((kept ++ moved).map ViolationRecord.key) :=
    (List.sublist_append_left kept moved).map _
  exact ⟨((hperm.map _).nodup_iff.mpr h.keys).sublist hkept, (hall.map _).nodup_iff.mpr h.ids,
    fun r hr => h.each r (hall.mem_iff.mp hr)⟩

theorem ViolationRecord.Sane.seenAgain (h : r.Sane count) (hlt : count < 2 ^ 63 - 1) :
    (r.seenAgain v).Sane (count + 1) := by
  have hocc := h.occurs_le
  have hsucc : (r.seenAgain v).occurrences = r.occurrences + 1 :=
    int64Succ_of_lt (by omega)
  refine ⟨h.id_nonneg, ?_, ?_, ?_, ?_⟩
  · have := h.id_lt
    show r.id < count + 1
    omega
  · have := h.occurs
    omega
  · omega
  · show r.firstObservedTimestamp ≤ if _ then _ else _
    split
    · next hnewer => exact h.observed.trans (le_of_lt hnewer)
    · exact h.observed

theorem ViolationRecord.Sane.refresh (h : r.Sane count) (hlt : count < 2 ^ 63 - 1) :
    (v.refresh r).Sane (count + 1) := by
  unfold ViolationRecord.refresh
  split
  · exact h.seenAgain hlt
  · exact h.mono (by omega)

/-- **One scraped violation.** -/
theorem Records.absorb {live : List ViolationRecord} (h : Records count live acked)
    (hpos : 0 ≤ count) (hlt : count < 2 ^ 63 - 1) (v : ViolationRecord) :
    Records (count + 1) (absorb count live v) acked := by
  unfold Api.absorb
  split
  · next hmem =>
    refine ⟨?_, ?_, ?_⟩
    · simpa [Function.comp_def] using h.keys
    · simpa [Function.comp_def] using h.ids
    · intro r hr
      rcases List.mem_append.mp hr with hr | hr
      · obtain ⟨r₀, hr₀, rfl⟩ := List.mem_map.mp hr
        exact (h.each r₀ (List.mem_append_left _ hr₀)).refresh hlt
      · exact (h.each r (List.mem_append_right _ hr)).mono (by omega)
  · next hnew =>
    have hfresh : (v.firstSeen count).Sane (count + 1) :=
      ⟨hpos, Int.lt_succ count, Int.le_refl 1, by show 1 ≤ count + 1; omega, le_refl _⟩
    -- the counter is above every id
    have hid : count ∉ (live ++ acked).map ViolationRecord.id := by
      intro hc
      obtain ⟨r, hr, hrid⟩ := List.mem_map.mp hc
      have := (h.each r hr).id_lt
      omega
    have hperm : (live ++ [v.firstSeen count] ++ acked).Perm
        (v.firstSeen count :: (live ++ acked)) := by
      rw [List.append_assoc]
      exact List.perm_middle
    refine ⟨?_, ?_, ?_⟩
    · rw [← List.concat_eq_append, List.map_concat]
      exact h.keys.concat hnew
    · rw [(hperm.map _).nodup_iff]
      exact List.nodup_cons.mpr ⟨hid, h.ids⟩
    · intro r hr
      rcases List.mem_cons.mp (hperm.mem_iff.mp hr) with rfl | hr
      · exact hfresh
      · exact (h.each r hr).mono (by omega)

/-! ## The history of a record -/

/-- A later version of the same record. -/
structure ViolationRecord.Continues (r r' : ViolationRecord) : Prop where
  id : r'.id = r.id
  key : r'.key = r.key
  first : r'.firstObservedTimestamp = r.firstObservedTimestamp
  last : r.lastObservedTimestamp ≤ r'.lastObservedTimestamp

theorem ViolationRecord.Continues.refl (r : ViolationRecord) : r.Continues r :=
  ⟨rfl, rfl, rfl, le_refl _⟩

theorem ViolationRecord.Continues.trans {r₁ r₂ r₃ : ViolationRecord} (h : r₁.Continues r₂)
    (h' : r₂.Continues r₃) : r₁.Continues r₃ :=
  ⟨h'.id.trans h.id, h'.key.trans h.key, h'.first.trans h.first, h.last.trans h'.last⟩

theorem ViolationRecord.continues_refresh (v r : ViolationRecord) : r.Continues (v.refresh r) := by
  unfold ViolationRecord.refresh
  split
  · refine ⟨rfl, rfl, rfl, ?_⟩
    show r.lastObservedTimestamp ≤ if _ then _ else _
    split
    · next hnewer => exact le_of_lt hnewer
    · exact le_refl _
  · exact .refl r

/-- Every record goes on, and the others have ids from `count` on. -/
structure Continued (count : Int) (l l' : List ViolationRecord) : Prop where
  old : ∀ r ∈ l, ∃ r' ∈ l', r.Continues r'
  new : ∀ r' ∈ l', (∃ r ∈ l, r.Continues r') ∨ count ≤ r'.id

theorem Continued.refl (count : Int) (l : List ViolationRecord) : Continued count l l :=
  ⟨fun r hr => ⟨r, hr, .refl r⟩, fun r hr => .inl ⟨r, hr, .refl r⟩⟩

theorem Continued.trans {c c' : Int} {l₁ l₂ l₃ : List ViolationRecord} (h : Continued c l₁ l₂)
    (h' : Continued c' l₂ l₃) (hc : c ≤ c') : Continued c l₁ l₃ := by
  constructor
  · intro r hr
    obtain ⟨r₂, hr₂, hcont⟩ := h.old r hr
    obtain ⟨r₃, hr₃, hcont'⟩ := h'.old r₂ hr₂
    exact ⟨r₃, hr₃, hcont.trans hcont'⟩
  · intro r₃ hr₃
    rcases h'.new r₃ hr₃ with ⟨r₂, hr₂, hcont'⟩ | hid
    · rcases h.new r₂ hr₂ with ⟨r, hr, hcont⟩ | hid
      · exact .inl ⟨r, hr, hcont.trans hcont'⟩
      · exact .inr (hcont'.id ▸ hid)
    · exact .inr (hc.trans hid)

theorem continued_absorb (count : Int) (l : List ViolationRecord) (v : ViolationRecord) :
    Continued count l (absorb count l v) := by
  unfold absorb
  split
  · constructor
    · intro r hr
      exact ⟨v.refresh r, List.mem_map_of_mem hr, v.continues_refresh r⟩
    · intro r' hr'
      obtain ⟨r, hr, rfl⟩ := List.mem_map.mp hr'
      exact .inl ⟨r, hr, v.continues_refresh r⟩
  · constructor
    · intro r hr
      exact ⟨r, List.mem_append_left _ hr, .refl r⟩
    · intro r' hr'
      rcases List.mem_append.mp hr' with hr' | hr'
      · exact .inl ⟨r', hr', .refl r'⟩
      · rw [List.mem_singleton.mp hr']
        exact .inr (Int.le_refl count)

/-! ## The whole merge -/

variable {scraped : List ViolationRecord} {s : WorkloadPolicyStatus}

theorem MergeState.foldl_count (hlt : m.violationCount + scraped.length < 2 ^ 63) :
    (scraped.foldl mergeViolation m).violationCount = m.violationCount + scraped.length := by
  induction scraped generalizing m with
  | nil => simp
  | cons v scraped ih =>
    rw [List.length_cons] at hlt
    have hcount : (m.mergeViolation v).violationCount = m.violationCount + 1 := by
      rw [MergeState.mergeViolation_count, int64Succ_of_lt (by omega)]
    rw [List.foldl_cons, ih (by omega), hcount, List.length_cons]
    omega

theorem MergeState.Indexed.foldl (h : m.Indexed) :
    (scraped.foldl MergeState.mergeViolation m).Indexed := by
  induction scraped generalizing m with
  | nil => exact h
  | cons v scraped ih => exact ih (h.mergeViolation v)

theorem MergeState.foldl_push (h : m.Indexed)
    (hnew : ∀ r ∈ (scraped.foldl mergeViolation m).violations, r.key ≠ v.key) :
    ((scraped ++ [v]).foldl mergeViolation m).violations =
      (scraped.foldl mergeViolation m).violations ++
        [v.firstSeen (scraped.foldl mergeViolation m).violationCount] := by
  have hout : v.key ∉ (scraped.foldl mergeViolation m).violations.map ViolationRecord.key := by
    intro hmem
    obtain ⟨r, hr, hkey⟩ := List.mem_map.mp hmem
    exact hnew r hr hkey
  have hindexed : (scraped.foldl mergeViolation m).Indexed := MergeState.Indexed.foldl h
  rw [List.foldl_append, List.foldl_cons, List.foldl_nil,
    MergeState.mergeViolation_violations hindexed, absorb, if_neg hout]

/-- What is true of the records, of what was scraped, and stays true of a record that is seen again
is true of the records after the loop. -/
theorem MergeState.forall_foldl {P : ViolationRecord → Prop} (h : m.Indexed)
    (hold : ∀ r ∈ m.violations, P r) (hnew : ∀ v ∈ scraped, ∀ count, P (v.firstSeen count))
    (hagain : ∀ v ∈ scraped, ∀ r, P r → P (r.seenAgain v)) :
    ∀ r ∈ (scraped.foldl mergeViolation m).violations, P r := by
  induction scraped generalizing m with
  | nil => exact hold
  | cons v scraped ih =>
    refine ih (h.mergeViolation v) ?_ (fun w hw => hnew w (List.mem_cons_of_mem v hw))
      fun w hw => hagain w (List.mem_cons_of_mem v hw)
    rw [MergeState.mergeViolation_violations h v, absorb]
    split
    · intro r hr
      obtain ⟨r₀, hr₀, rfl⟩ := List.mem_map.mp hr
      unfold ViolationRecord.refresh
      split
      · exact hagain v List.mem_cons_self r₀ (hold r₀ hr₀)
      · exact hold r₀ hr₀
    · intro r hr
      rcases List.mem_append.mp hr with hr | hr
      · exact hold r hr
      · rw [List.mem_singleton.mp hr]
        exact hnew v List.mem_cons_self _

/-- What the loop does, from one state of its variables to another. -/
structure Merges (scraped : Nat) (m m' : MergeState) : Prop where
  count : m'.violationCount = m.violationCount + scraped
  continued : Continued m.violationCount m.violations m'.violations
  records : ∀ acked, Records m.violationCount m.violations acked →
    Records m'.violationCount m'.violations acked

theorem MergeState.merges_foldl (h : m.Indexed) (hpos : 0 ≤ m.violationCount)
    (hlt : m.violationCount + scraped.length < 2 ^ 63) :
    Merges scraped.length m (scraped.foldl mergeViolation m) := by
  have htotal := foldl_count hlt
  induction scraped generalizing m with
  | nil => exact ⟨htotal, Continued.refl _ _, fun _ hrec => hrec⟩
  | cons v scraped ih =>
    rw [List.length_cons] at hlt
    have hlt₁ : m.violationCount < 2 ^ 63 - 1 := by omega
    have hcount : (m.mergeViolation v).violationCount = m.violationCount + 1 := by
      rw [MergeState.mergeViolation_count, int64Succ_of_lt hlt₁]
    have hviol := MergeState.mergeViolation_violations h v
    have hrest := ih (h.mergeViolation v) (by omega) (by omega) (foldl_count (by omega))
    refine ⟨htotal, ?_, ?_⟩
    · have hone := continued_absorb m.violationCount m.violations v
      rw [← hviol] at hone
      exact hone.trans hrest.continued (by omega)
    · intro acked hrec
      have hone := hrec.absorb hpos hlt₁ v
      rw [← hviol, ← hcount] at hone
      exact hrest.records acked hone

/-- **The merge loop.** -/
theorem WorkloadPolicyStatus.merges (hkeys : (s.violations.map ViolationRecord.key).Nodup)
    (hpos : 0 ≤ s.violationCount) (hlt : s.violationCount + scraped.length < 2 ^ 63) :
    Merges scraped.length ⟨s.violations, indexByKey s.violations, s.violationCount⟩
      (s.mergeLoop scraped) :=
  MergeState.merges_foldl (indexByKey_indexes hkeys) hpos hlt

/-! ## The nodes leave the violations alone -/

variable {previous s' : WorkloadPolicyStatus} {now : Time} {nodes : List PolicyNodeStatus}

/-- What `processPolicyNodeStatus` does not touch. -/
structure SameViolations (s s' : WorkloadPolicyStatus) : Prop where
  violations : s'.violations = s.violations
  acknowledged : s'.acknowledgedViolations = s.acknowledgedViolations
  count : s'.violationCount = s.violationCount

theorem processPolicyNodeStatus_same (h : s.processPolicyNodeStatus previous nodes now = .ok s') :
    SameViolations s s' := by
  obtain ⟨-, rfl⟩ := processPolicyNodeStatus_eq_ok_iff.mp h
  exact ⟨rfl, rfl, rfl⟩

/-! ## The whole recomputation -/

variable {id : Int}

/-- What the merge leaves of the live records once it is trimmed and the allowed ones are
cleared. -/
def WorkloadPolicy.live (wp : WorkloadPolicy) (scraped : List ViolationRecord) :
    List ViolationRecord :=
  (newest ViolationRecord.lastObservedTimestamp maxViolationRecords
    (wp.status.mergeLoop scraped).violations).filter fun v => !wp.clears v

/-- What the annotations ask for. -/
def WorkloadPolicy.requests (wp : WorkloadPolicy) (order : Order String String) :
    GoMap Int AnnotationInfo :=
  acknowledges (order.range 0 wp.annotations)

section Push

variable {annotations : List (Entry String String)} {e : Entry String String}

theorem acknowledges_push_some (h : acknowledgedID e.1 = some id) :
    acknowledges (annotations ++ [e]) = (acknowledges annotations).insert id ⟨e.1, e.2⟩ := by
  simp only [acknowledges, List.foldl_concat, h]

theorem acknowledges_push_none (h : acknowledgedID e.1 = none) :
    acknowledges (annotations ++ [e]) = acknowledges annotations := by
  simp only [acknowledges, List.foldl_concat, h]

end Push

theorem acknowledges_spec {annotations : List (Entry String String)} {info : AnnotationInfo}
    (h : (acknowledges annotations).lookup id = some info) :
    (⟨info.annotationKey, info.reason⟩ : Entry String String) ∈ annotations ∧
      acknowledgedID info.annotationKey = some id := by
  induction annotations using List.reverseRecOn with
  | nil => simp [acknowledges] at h
  | append_singleton annotations e ih =>
    have hrest : (acknowledges annotations).lookup id = some info →
        (⟨info.annotationKey, info.reason⟩ : Entry String String) ∈ annotations ++ [e] ∧
          acknowledgedID info.annotationKey = some id := by
      intro hold
      obtain ⟨hmem, hid⟩ := ih hold
      exact ⟨List.mem_append_left _ hmem, hid⟩
    cases he : acknowledgedID e.1 with
    | none =>
      rw [acknowledges_push_none he] at h
      exact hrest h
    | some id' =>
      rw [acknowledges_push_some he, GoMap.lookup_insert_eq] at h
      split at h
      · next heq =>
        cases h
        exact ⟨by simp, heq ▸ he⟩
      · exact hrest h

theorem acknowledges_isSome {annotations : List (Entry String String)} {e : Entry String String}
    (he : e ∈ annotations) (hid : acknowledgedID e.1 = some id) :
    ((acknowledges annotations).lookup id).isSome := by
  induction annotations using List.reverseRecOn with
  | nil => cases he
  | append_singleton annotations e' ih =>
    rcases List.mem_append.mp he with hold | hlast
    · cases he' : acknowledgedID e'.1 with
      | none =>
        rw [acknowledges_push_none he']
        exact ih hold
      | some id' =>
        rw [acknowledges_push_some he', GoMap.lookup_insert_eq]
        split
        · rfl
        · exact ih hold
    · obtain rfl := List.mem_singleton.mp hlast
      rw [acknowledges_push_some hid, GoMap.lookup_insert_eq, if_pos rfl]
      rfl

theorem WorkloadPolicy.requests_spec {wp : WorkloadPolicy} {order : Order String String}
    {info : AnnotationInfo} (h : (wp.requests order).lookup id = some info) :
    info.annotationKey ∈ wp.annotations ∧ acknowledgedID info.annotationKey = some id := by
  obtain ⟨hmem, hid⟩ := acknowledges_spec h
  have hlookup := (order.mem_range 0).mp hmem
  exact ⟨AList.lookup_isSome.mp (by simp [hlookup]), hid⟩

theorem lookup_of_no_requests {requests : GoMap Int AnnotationInfo} (h : requests.entries = [])
    (id : Int) : requests.lookup id = none := by
  refine Option.eq_none_iff_forall_ne_some.mpr fun info hinfo => ?_
  rw [← GoMap.mem_entries, h] at hinfo
  exact List.not_mem_nil hinfo

theorem dropMet_of_no_requests {requests : GoMap Int AnnotationInfo} (h : requests.entries = [])
    (violations : List ViolationRecord) (annotations : GoMap String String) :
    dropMet requests violations annotations = annotations := by
  induction violations with
  | nil => rfl
  | cons v violations ih =>
    rw [dropMet, List.foldl_cons, lookup_of_no_requests h]
    exact ih

theorem acknowledgeViolationsFromAnnotations_eq (wp : WorkloadPolicy) (order : Order String String)
    (now : Time) :
    wp.acknowledgeViolationsFromAnnotations order now =
      ({ wp with
          annotations := dropMet (wp.requests order) wp.status.violations wp.annotations
          status :=
            { wp.status with
              violations :=
                wp.status.violations.filter fun v => ((wp.requests order).lookup v.id).isNone
              acknowledgedViolations :=
                if (wp.requests order).entries = [] then wp.status.acknowledgedViolations
                else newest AcknowledgedViolationRecord.acknowledgedAt maxViolationRecords
                  (wp.status.acknowledgedViolations ++
                    wp.status.violations.filterMap (acknowledgeAs (wp.requests order) now)) } },
        wp.status.violations.filterMap (acknowledgeAs (wp.requests order) now)) := by
  unfold WorkloadPolicy.acknowledgeViolationsFromAnnotations
  by_cases hreq : (wp.requests order).entries = []
  · have hnone := lookup_of_no_requests hreq
    have hacks : wp.status.violations.filterMap (acknowledgeAs (wp.requests order) now) = [] := by
      simp [List.filterMap_eq_nil_iff, acknowledgeAs, hnone]
    have hkept : (wp.status.violations.filter fun v => ((wp.requests order).lookup v.id).isNone) =
        wp.status.violations := by simp [hnone]
    simp only [← WorkloadPolicy.requests.eq_1, hreq, if_true, ite_self, hacks, hkept,
      dropMet_of_no_requests hreq]
  · -- there is a request, so there is an annotation
    have hann : wp.annotations.entries ≠ [] := by
      intro hnil
      have hrange : order.range 0 wp.annotations = [] := by
        have hperm := order.perm 0 wp.annotations.entries
        rw [hnil] at hperm
        rw [Order.range, hnil]
        exact hperm.eq_nil
      exact hreq (by rw [WorkloadPolicy.requests, hrange]; rfl)
    rw [if_neg hann]
    simp only [← WorkloadPolicy.requests.eq_1, if_neg hreq]

/-- **What `RecomputeStatus` returns.** -/
structure Recomputed (wp : WorkloadPolicy) (order : Order String String)
    (scraped : List ViolationRecord) (now : Time) (wp' : WorkloadPolicy)
    (acknowledged : List AcknowledgedViolationRecord) : Prop where
  spec : wp'.toWorkloadPolicy = wp.toWorkloadPolicy
  generation : wp'.generation = wp.generation
  count : wp'.status.violationCount = (wp.status.mergeLoop scraped).violationCount
  acks : acknowledged = (wp.live scraped).filterMap (acknowledgeAs (wp.requests order) now)
  violations : wp'.status.violations =
    (wp.live scraped).filter fun v => ((wp.requests order).lookup v.id).isNone
  acknowledgedViolations : wp'.status.acknowledgedViolations =
    if (wp.requests order).entries = [] then wp.status.acknowledgedViolations
    else newest AcknowledgedViolationRecord.acknowledgedAt maxViolationRecords
      (wp.status.acknowledgedViolations ++ acknowledged)
  annotations : wp'.annotations = dropMet (wp.requests order) (wp.live scraped) wp.annotations
  active : wp'.status.activeViolationCount = wp'.status.violations.length
  observedGeneration : wp'.status.observedGeneration = wp.generation

theorem recomputeStatus_ok {wp wp' : WorkloadPolicy} {order : Order String String}
    {acknowledged : List AcknowledgedViolationRecord}
    (h : wp.recomputeStatus order nodes scraped now = .ok (wp', acknowledged)) :
    Recomputed wp order scraped now wp' acknowledged := by
  unfold WorkloadPolicy.recomputeStatus at h
  cases hnodes : wp.status.processPolicyNodeStatus wp.status nodes now with
  | error e => simp [hnodes] at h
  | ok status =>
    have hsame := processPolicyNodeStatus_same hnodes
    have hloop : status.mergeLoop scraped = wp.status.mergeLoop scraped := by
      simp only [WorkloadPolicyStatus.mergeLoop, hsame.violations, hsame.count]
    simp only [hnodes, acknowledgeViolationsFromAnnotations_eq, Except.ok.injEq,
      Prod.mk.injEq] at h
    obtain ⟨rfl, rfl⟩ := h
    -- the records that are acknowledged or kept are the live ones
    have hlive : (WorkloadPolicy.clearAllowedViolations
        { wp with status := status.mergeScrapedViolations scraped }).status.violations =
        wp.live scraped := by
      rw [WorkloadPolicy.live, ← hloop]
      rfl
    refine ⟨rfl, rfl, ?_, ?_, ?_, ?_, ?_, rfl, rfl⟩
    · show (status.mergeLoop scraped).violationCount = _
      rw [hloop]
    · exact congrArg _ hlive
    · exact congrArg _ hlive
    · show (if (wp.requests order).entries = [] then status.acknowledgedViolations
        else newest _ _ (status.acknowledgedViolations ++ _)) = _
      rw [hsame.acknowledged]
    · exact congrArg (dropMet (wp.requests order) · wp.annotations) hlive

end RuntimeEnforcer.Api
