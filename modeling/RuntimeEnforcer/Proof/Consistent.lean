import RuntimeEnforcer.Proof.Ledger
import RuntimeEnforcer.Proof.Tracking
import RuntimeEnforcer.Resolver.ExportViews

/-!
# The cache and its index

The cgroup index names the pod of every cached container, and of no other. A report updates both
container by container: in a cached pod the two go together, while a new pod is put in the cache
only when all its containers are tracked. If the tracker fails before that, the index has entries of
a pod that is not there, which no later removal takes away. It is the only way in which the two come
apart.
-/

set_option autoImplicit false

namespace RuntimeEnforcer

open Lib

/-- The index and the cache agree, and a view is found through them. -/
structure Consistent (env : Env) (r : Resolver) : Prop where
  index : ∀ cg p, r.cgroupIDToPodID.lookup cg = some p ↔
    ∃ pm cid c, r.Cached p pm cid c ∧ c.cgroupID = cg
  nonempty : ∀ p entry, r.podCache.lookup p = some entry →
    ∃ cid c, entry.containers.lookup cid = some c
  view : ∀ cg v, getContainerView env cg r = .ok v ↔
    (∃ p, r.Cached p v.podMeta v.containerID v.container) ∧ v.container.cgroupID = cg

/-- The tracker does not fail while a pod that is not cached is reported. -/
def Op.TracksNew (env : Env) (r : Resolver) : Op → Prop
  | .addPod pod => r.podCache.lookup pod.podMeta.id = none →
    ∀ t ∈ pod.trackerCalls env r, env.fault t = none
  | _ => True

/-- A report has containers. -/
def Op.NonEmpty : Op → Prop
  | .addPod pod => ∃ cid ci, pod.containers.lookup cid = some ci
  | _ => True

/-- What the cache and the index say of each other, without the view. -/
structure Indexed (r : Resolver) : Prop where
  index : ∀ cg p, r.cgroupIDToPodID.lookup cg = some p ↔
    ∃ pm cid c, r.Cached p pm cid c ∧ c.cgroupID = cg
  nonempty : ∀ p entry, r.podCache.lookup p = some entry →
    ∃ cid c, entry.containers.lookup cid = some c

section

variable {env : Env} {R : List Report} {r r' : Resolver}

theorem Indexed.view (hR : Inventory R) (hs : Sound R r) (h : Indexed r) (cg : CgroupID)
    (v : ContainerView) : getContainerView env cg r = .ok v ↔
      (∃ p, r.Cached p v.podMeta v.containerID v.container) ∧ v.container.cgroupID = cg := by
  -- what the loop stops at is cached with the cgroup
  have hfound : ∀ p entry e, r.podCache.lookup p = some entry →
      (env.containers.range r.world.clock entry.containers).find? (fun e => cg = e.2.cgroupID)
        = some e → r.Cached p entry.podMeta e.1 e.2 ∧ e.2.cgroupID = cg := by
    intro p entry e hentry he
    refine
      ⟨⟨entry, hentry, rfl, (env.containers.mem_range _).mp (List.mem_of_find?_eq_some he)⟩, ?_⟩
    have hcg := List.find?_some he
    exact (of_decide_eq_true hcg).symm
  unfold getContainerView
  constructor
  · intro hv
    cases hp : r.cgroupIDToPodID.lookup cg with
    | none => simp [hp] at hv
    | some p =>
      simp only [hp] at hv
      cases hentry : r.podCache.lookup p with
      | none => simp [hentry] at hv
      | some entry =>
        simp only [hentry] at hv
        cases he : (env.containers.range r.world.clock entry.containers).find?
            (fun e => cg = e.2.cgroupID) with
        | none => simp [he] at hv
        | some e =>
          simp only [he, Except.ok.injEq] at hv
          obtain ⟨hc, hcg⟩ := hfound p entry e hentry he
          subst hv
          exact ⟨⟨p, hcg ▸ hc⟩, rfl⟩
  · rintro ⟨⟨p, hc⟩, hcg⟩
    have hp : r.cgroupIDToPodID.lookup cg = some p := (h.index cg p).mpr ⟨_, _, _, hc, hcg⟩
    have hcached := hc
    obtain ⟨entry, hentry, hpm, hcid⟩ := hc
    simp only [hp, hentry]
    cases he : (env.containers.range r.world.clock entry.containers).find?
        (fun e => cg = e.2.cgroupID) with
    | none =>
      have hnot := List.find?_eq_none.mp he ⟨v.containerID, v.container⟩
        ((env.containers.mem_range _).mpr hcid)
      exact absurd (decide_eq_true hcg.symm) hnot
    | some e =>
      obtain ⟨hc', hcg'⟩ := hfound p entry e hentry he
      obtain ⟨_, hpm', hid, hmeta⟩ := hs.eq_of_cgroup hR hc' hcached (hcg'.trans hcg.symm)
      simp only [Except.ok.injEq]
      rw [hpm', hid, hmeta, ← hcg]

theorem consistent_iff (hR : Inventory R) (hs : Sound R r) : Consistent env r ↔ Indexed r :=
  ⟨fun h => ⟨h.index, h.nonempty⟩, fun h => ⟨h.index, h.nonempty, h.view hR hs⟩⟩

/-! ## A report -/

/-- The loop over a report's containers, and the index: the containers put in the entry `st₀` have
the pod, everything else is as in `r₀`. -/
structure Indexing (r₀ : Resolver) (pod : PodInput) (st₀ : PodEntry) (V : Set ContainerID)
    (st : PodEntry) (r : Resolver) : Prop extends Adding r₀ pod st₀ V st r where
  new : ∀ cid c, st.containers.lookup cid = some c → st₀.containers.lookup cid = none →
    r.cgroupIDToPodID.lookup c.cgroupID = some pod.podMeta.id
  old : ∀ cg, (∀ cid c, st.containers.lookup cid = some c → st₀.containers.lookup cid = none →
    c.cgroupID ≠ cg) → r.cgroupIDToPodID.lookup cg = r₀.cgroupIDToPodID.lookup cg

variable {pod : PodInput} {r₀ : Resolver} {st₀ st : PodEntry} {V : Set ContainerID}
  {cid : ContainerID} {ci : ContainerInput}

theorem Indexing.refl (h : Starts r₀ pod st₀) : Indexing r₀ pod st₀ ∅ st₀ r₀ where
  toAdding := .refl h
  new := fun cid c hc hnone => absurd hc (by simp [hnone])
  old := fun _ _ => rfl

theorem Indexing.store (h : Indexing r₀ pod st₀ V st r) (hin : pod.containers.lookup cid = some ci)
    (hst : st.containers.lookup cid = none) {w : World} (hw : Tracks r.world.maps w.maps)
    {events : List CacheEvent} :
    Indexing r₀ pod st₀ (V ∪ {cid}) (st.put cid ci)
      { storeContainer pod (r₀.podCache.lookup pod.podMeta.id).isSome (st.put cid ci) cid
          ci.cgroupID r with world := w, events } where
  toAdding := h.toAdding.store hin hst hw
  new := by
    intro cid' c hc hnone
    simp only [storeContainer, PodEntry.lookup_put, GoMap.lookup_insert_eq] at hc ⊢
    split
    · rfl
    · next hcg =>
      split at hc
      · exact absurd (congrArg ContainerMeta.cgroupID (Option.some.inj hc)).symm hcg
      · exact h.new cid' c hc hnone
  old := by
    intro cg hcg
    have hnone₀ : st₀.containers.lookup cid = none := by
      cases h₀ : st₀.containers.lookup cid with
      | none => rfl
      | some c => exact absurd (h.grows cid c h₀) (by simp [hst])
    have hne : cg ≠ ci.cgroupID := by
      have := hcg cid ci.toContainerMeta (by simp [PodEntry.lookup_put]) hnone₀
      exact fun heq => this heq.symm
    simp only [storeContainer, GoMap.lookup_insert_eq, if_neg hne]
    refine h.old cg fun cid' c hc hnone => hcg cid' c ?_ hnone
    rw [PodEntry.lookup_put, if_neg, hc]
    rintro rfl
    exact absurd hc (by simp [hst])

theorem addContainer_indexing (h : Indexing r₀ pod st₀ V st r)
    (hin : pod.containers.lookup cid = some ci) :
    Ends (addContainer env pod (r₀.podCache.lookup pod.podMeta.id).isSome st ⟨cid, ci⟩ r)
      (fun st' r' => Indexing r₀ pod st₀ (V ∪ {cid}) st' r' ∧
        (st.containers.lookup cid = none → env.fault r.world.clock = none))
      (fun _ r' => ∃ V' st', Indexing r₀ pod st₀ V' st' r' ∧ (Conflict pod st₀ ∨
        (st.containers.lookup cid = none ∧ env.fault r.world.clock ≠ none) ∧
          ∃ cid c, st'.containers.lookup cid = some c)) := by
  refine addContainer_cases.mono ?_ ?_
  · rintro st' r' (⟨hst, rfl, rfl⟩ | ⟨hst, hf, rfl, w, hw, rfl⟩)
    · exact ⟨{ h with toAdding := h.toAdding.present hin hst }, by simp [hst]⟩
    · exact ⟨h.store hin hst (hw.maps ⟨rfl, rfl, rfl⟩), fun _ => hf⟩
  · rintro e r' (⟨info, hst, hne, rfl⟩ | ⟨hst, hf, -, w, hw, rfl⟩)
    · exact ⟨V, st, h, .inl (h.conflict hin hst hne)⟩
    · refine ⟨_, _, h.store hin hst (hw.maps ⟨rfl, rfl, rfl⟩), .inr ⟨⟨hst, hf⟩, cid, ?_⟩⟩
      exact ⟨ci.toContainerMeta, by simp [PodEntry.lookup_put]⟩

/-- The loop. It stops at a call of the tracker that fails, after putting the container in the
entry. -/
theorem foldlM_addContainer_indexing (es : List (Entry ContainerID ContainerInput))
    (hes : ∀ e ∈ es, pod.containers.lookup e.1 = some e.2) (h : Indexing r₀ pod st₀ V st r) :
    Ends (es.foldlM (addContainer env pod (r₀.podCache.lookup pod.podMeta.id).isSome) st r)
      (fun st' r' => (∃ V', Indexing r₀ pod st₀ V' st' r') ∧
        ∀ t ∈ trackerCalls env pod (r₀.podCache.lookup pod.podMeta.id).isSome es st r,
          env.fault t = none)
      (fun _ r' => ∃ V' st', Indexing r₀ pod st₀ V' st' r' ∧ (Conflict pod st₀ ∨
        (∃ t ∈ trackerCalls env pod (r₀.podCache.lookup pod.podMeta.id).isSome es st r,
          env.fault t ≠ none) ∧ ∃ cid c, st'.containers.lookup cid = some c)) := by
  induction es generalizing V st r with
  | nil => exact ⟨⟨V, h⟩, by simp [trackerCalls]⟩
  | cons e es ih =>
    rw [List.foldlM_cons]
    have hone : Ends (addContainer env pod (r₀.podCache.lookup pod.podMeta.id).isSome st e r) _ _ :=
      addContainer_indexing h (hes e (by simp))
    refine Ends.bind ((hone.and (Ends.self _)).mono ?_ ?_)
    · rintro st' r' ⟨⟨h', hf⟩, hres⟩
      refine (ih (fun e' he' => hes e' (by simp [he'])) h').mono ?_ ?_
      · rintro st'' r'' ⟨h'', hcalls⟩
        refine ⟨h'', fun t ht => ?_⟩
        simp only [trackerCalls, hres] at ht
        rcases List.mem_append.mp ht with ht | ht
        · split at ht
          · next hnone => exact (List.mem_singleton.mp ht) ▸ hf hnone
          · exact absurd ht (by simp)
        · exact hcalls t ht
      · rintro _ r'' ⟨V'', st'', h'', hc | ⟨⟨t, ht, hft⟩, hex⟩⟩
        · exact ⟨V'', st'', h'', .inl hc⟩
        · refine ⟨V'', st'', h'', .inr ⟨⟨t, ?_, hft⟩, hex⟩⟩
          simp only [trackerCalls, hres]
          exact List.mem_append_right _ ht
    · rintro _ r' ⟨⟨V', st', h', hc | ⟨⟨hnone, hf⟩, hex⟩⟩, _⟩
      · exact ⟨V', st', h', .inl hc⟩
      · refine ⟨V', st', h', .inr ⟨⟨r.world.clock, ?_, hf⟩, hex⟩⟩
        simp only [trackerCalls, if_pos hnone]
        exact List.mem_append_left _ (by simp)

theorem Indexing.indexed (hR : Inventory R) (hs : Sound R r₀)
    (hin : ∀ x ∈ (Op.addPod pod).reports, x ∈ R) (hk : Starts r₀ pod st₀) (h₀ : Indexed r₀)
    (h : Indexing r₀ pod st₀ V st r) (hst : ∃ cid c, st.containers.lookup cid = some c)
    (hpod : r'.podCache.lookup pod.podMeta.id = some st)
    (hother : ∀ p, p ≠ pod.podMeta.id → r'.podCache.lookup p = r₀.podCache.lookup p)
    (hindex : r'.cgroupIDToPodID = r.cgroupIDToPodID) : Indexed r' := by
  -- the entry before was the cache's, or it was empty
  have hstart : ∀ cid c, st₀.containers.lookup cid = some c →
      r₀.podCache.lookup pod.podMeta.id = some st₀ := by
    intro cid c hc
    rcases hk with ⟨_, hnone⟩ | hk
    · exact absurd hc (by simp [hnone])
    · exact hk
  refine ⟨fun cg p => ?_, fun p entry hentry => ?_⟩
  · rw [hindex]
    by_cases hnew : ∃ cid c, st.containers.lookup cid = some c ∧
        st₀.containers.lookup cid = none ∧ c.cgroupID = cg
    · -- the cgroup of a container that this report has added
      obtain ⟨cid, c, hc, hnone, rfl⟩ := hnew
      rw [h.new cid c hc hnone]
      constructor
      · intro heq
        obtain rfl := Option.some.inj heq
        exact ⟨st.podMeta, cid, c, ⟨st, hpod, rfl, hc⟩, rfl⟩
      · rintro ⟨pm, cid', c', ⟨entry, hentry, hpm, hc'⟩, hcg⟩
        by_cases hp : p = pod.podMeta.id
        · rw [hp]
        · rw [hother p hp] at hentry
          obtain ⟨ci, hci, rfl⟩ := (h.source cid c hc).resolve_left (by simp [hnone])
          have heq := (hR _ (hs.reported p pm cid' c' ⟨entry, hentry, hpm, hc'⟩) _
            (hin _ (mem_reports hci))).2 hcg
          exact absurd (congrArg Report.podID heq) hp
    · rw [h.old cg fun cid c hc hnone hcg => hnew ⟨cid, c, hc, hnone, hcg⟩, h₀.index cg p]
      constructor
      · rintro ⟨pm, cid, c, ⟨entry, hentry, hpm, hc⟩, hcg⟩
        by_cases hp : p = pod.podMeta.id
        · subst hp
          rcases hk with ⟨hk, _⟩ | hk
          · exact absurd hentry (by simp [hk])
          · obtain rfl : st₀ = entry := Option.some.inj (hk.symm.trans hentry)
            exact ⟨st.podMeta, cid, c, ⟨st, hpod, rfl, h.grows cid c hc⟩, hcg⟩
        · exact ⟨pm, cid, c, ⟨entry, (hother p hp).trans hentry, hpm, hc⟩, hcg⟩
      · rintro ⟨pm, cid, c, ⟨entry, hentry, hpm, hc⟩, hcg⟩
        by_cases hp : p = pod.podMeta.id
        · subst hp
          obtain rfl : st = entry := Option.some.inj (hpod.symm.trans hentry)
          cases hc₀ : st₀.containers.lookup cid with
          | none => exact absurd ⟨cid, c, hc, hc₀, hcg⟩ hnew
          | some c₀ =>
            obtain rfl : c₀ = c := Option.some.inj ((h.grows cid c₀ hc₀).symm.trans hc)
            exact ⟨st₀.podMeta, cid, c₀, ⟨st₀, hstart cid c₀ hc₀, rfl, hc₀⟩, hcg⟩
        · exact ⟨pm, cid, c, ⟨entry, (hother p hp).symm.trans hentry, hpm, hc⟩, hcg⟩
  · by_cases hp : p = pod.podMeta.id
    · subst hp
      obtain rfl : st = entry := Option.some.inj (hpod.symm.trans hentry)
      exact hst
    · exact h₀.nonempty p entry ((hother p hp).symm.trans hentry)

theorem Indexed.addPod_iff (hR : Inventory R) (hs : Sound R r)
    (hin : ∀ x ∈ (Op.addPod pod).reports, x ∈ R)
    (hne : ∃ cid ci, pod.containers.lookup cid = some ci) (h : Indexed r) :
    Indexed ((Op.addPod pod).step env r) ↔ (Op.addPod pod).TracksNew env r := by
  have hk := starts_getD r pod
  refine Ends.after (P := fun r' => Indexed r' ↔ (Op.addPod pod).TracksNew env r) ?_
  unfold Op.exec addPodContainerFromNri
  refine Ends.bind (ends_ok.mpr (Ends.bind (((foldlM_addContainer_indexing
    (env.inputs.range r.world.clock pod.containers)
    (fun e he => (env.inputs.mem_range _).mp he) (Indexing.refl hk)).and
    (addContainers_ends hk)).mono ?_ ?_)))
  · rintro st r₁ ⟨⟨⟨V, hidx⟩, hcalls⟩, hadd⟩
    refine Ends.bind (ends_ok.mpr (Ends.bind (ends_ok.mpr (Ends.zoom ?_))))
    -- the loop has returned, so no call has failed
    have hput : ∀ w, Indexed (r₁.putPod pod.podMeta.id st w) ↔
        (Op.addPod pod).TracksNew env r := by
      intro w
      refine iff_of_true (hidx.indexed hR hs hin hk h ?_ ?_ (fun p hp => ?_) rfl)
        fun _ => hcalls
      · obtain ⟨cid, ci, hci⟩ := hne
        exact ⟨cid, _, hadd.done cid (by simp [hci]) ci hci⟩
      · simp [Resolver.putPod]
      · unfold Resolver.putPod
        rw [GoMap.lookup_insert_eq, if_neg hp]
        exact hidx.otherPods p hp
    exact (Ends.self _).mono (fun _ w _ => hput w) (fun _ w _ => hput w)
  · rintro e r₁ ⟨⟨V, st, hidx, hwhy⟩, _⟩
    cases hknown : r.podCache.lookup pod.podMeta.id with
    | some entry =>
      -- the entry is the cache's own
      refine iff_of_true (hidx.indexed hR hs hin hk h ?_ ?_ hidx.otherPods rfl) fun hnone =>
        absurd hnone (by simp [hknown])
      · obtain ⟨cid, c, hc⟩ := h.nonempty _ entry hknown
        refine ⟨cid, c, hidx.grows cid c ?_⟩
        rw [hknown]
        exact hc
      · rw [hidx.entry, hknown]
        rfl
    | none =>
      have hempty : ∀ cid, ((r.podCache.lookup pod.podMeta.id).getD
          (convertPodData pod)).containers.lookup cid = none := by
        intro cid
        rw [hknown]
        rfl
      rcases hwhy with ⟨cid, _, info, _, hinfo, _⟩ | ⟨⟨t, ht, hft⟩, cid, c, hc⟩
      · exact absurd hinfo (by simp [hempty])
      · -- the container is in the index, and its pod is not in the cache
        refine iff_of_false (fun hidx' => ?_) fun hall => hft (hall hknown t ht)
        obtain ⟨_, _, _, ⟨entry, hentry, _⟩, _⟩ :=
          (hidx'.index _ _).mp (hidx.new cid c hc (hempty cid))
        rw [hidx.entry, hknown] at hentry
        exact absurd hentry (by simp)

/-! ## The other operations -/

theorem Indexed.dropContainer (hR : Inventory R) (hs : Sound R r) (h : Indexed r) {podID : PodID}
    {state : PodEntry} {container : ContainerMeta} (hstate : r.podCache.lookup podID = some state)
    (hcid : state.containers.lookup cid = some container) (w : World) :
    Indexed (r.dropContainer podID cid state container.cgroupID w) := by
  have hthe : r.Cached podID state.podMeta cid container := ⟨state, hstate, rfl, hcid⟩
  refine ⟨fun cg p => ?_, fun p entry hentry => ?_⟩
  · have hlook : (r.dropContainer podID cid state container.cgroupID w).cgroupIDToPodID.lookup cg
        = if cg = container.cgroupID then none else r.cgroupIDToPodID.lookup cg :=
      GoMap.lookup_erase_eq
    simp only [Resolver.cached_dropContainer hstate hcid, hlook]
    by_cases hcg : cg = container.cgroupID
    · -- only the dropped container had it
      rw [if_pos hcg]
      refine iff_of_false (by simp) ?_
      rintro ⟨pm, cid', c, ⟨hc, hne⟩, hcg'⟩
      obtain ⟨rfl, _, rfl, _⟩ := hs.eq_of_cgroup hR hc hthe (hcg'.trans hcg)
      exact hne ⟨rfl, rfl⟩
    · rw [if_neg hcg, h.index]
      constructor
      · rintro ⟨pm, cid', c, hc, hcg'⟩
        refine ⟨pm, cid', c, ⟨hc, ?_⟩, hcg'⟩
        rintro ⟨rfl, rfl⟩
        obtain ⟨entry, hentry, _, hc⟩ := hc
        obtain rfl : state = entry := Option.some.inj (hstate.symm.trans hentry)
        obtain rfl : container = c := Option.some.inj (hcid.symm.trans hc)
        exact hcg hcg'.symm
      · rintro ⟨pm, cid', c, ⟨hc, _⟩, hcg'⟩
        exact ⟨pm, cid', c, hc, hcg'⟩
  · unfold Resolver.dropContainer at hentry
    simp only at hentry
    split at hentry
    · rw [GoMap.lookup_erase_eq] at hentry
      split at hentry
      · exact absurd hentry (by simp)
      · exact h.nonempty p entry hentry
    · next hlen =>
      rw [GoMap.lookup_insert_eq] at hentry
      split at hentry
      · obtain rfl := Option.some.inj hentry
        exact GoMap.exists_lookup_erase hlen hcid
      · exact h.nonempty p entry hentry

theorem Indexed.removePod (hR : Inventory R) (hs : Sound R r) (h : Indexed r) (podID : PodID)
    (cid : ContainerID) : Indexed ((Op.removePod podID cid).step env r) := by
  refine Ends.after ?_
  unfold Op.exec removePodContainerFromNri
  refine Ends.bind (ends_ok.mpr ?_)
  cases hstate : r.podCache.lookup podID with
  | none => exact ends_ok.mpr h
  | some state =>
    cases hcid : state.containers.lookup cid with
    | none =>
      simp only [hcid]
      exact ends_ok.mpr h
    | some container =>
      simp only [hcid]
      refine Ends.bind (ends_ok.mpr (Ends.zoom ?_))
      have hdrop := h.dropContainer hR hs hstate hcid
      exact (Ends.self _).mono (fun _ w _ => hdrop w) (fun _ w _ => hdrop w)

theorem Indexed.of_cache (h : Indexed r) (hcache : r'.podCache = r.podCache)
    (hindex : r'.cgroupIDToPodID = r.cgroupIDToPodID) : Indexed r' := by
  refine ⟨fun cg p => ?_, fun p entry hentry => h.nonempty p entry (hcache ▸ hentry)⟩
  rw [hindex, h.index]
  unfold Resolver.Cached
  rw [hcache]

/-- **A step keeps the index right if and only if the tracker does not fail a new pod.** -/
theorem Indexed.step_iff (hR : Inventory R) (hs : Sound R r) {op : Op}
    (hin : ∀ x ∈ op.reports, x ∈ R) (hne : op.NonEmpty) (h : Indexed r) :
    Indexed (op.step env r) ↔ op.TracksNew env r := by
  cases op with
  | reconcile wp =>
    refine iff_of_true ?_ trivial
    obtain ⟨s, status, hstep, _⟩ := step_reconcile env wp hs.ids
    rw [hstep]
    exact h.of_cache rfl rfl
  | delete o =>
    refine iff_of_true ?_ trivial
    refine Ends.after ((handleWPDelete_ends hs).mono ?_ ?_)
    · rintro _ r' (⟨_, rfl⟩ | ⟨info, w, _, rfl, _⟩)
      · exact h
      · exact h.of_cache rfl rfl
    · rintro e r' ⟨info, w, _, rfl, _⟩
      exact h.of_cache rfl rfl
  | addPod pod => exact h.addPod_iff hR hs hin hne
  | removePod podID cid => exact iff_of_true (h.removePod hR hs podID cid) trivial

end

/-- **The cache and its index stay consistent, if and only if the tracker never fails a pod that is
not cached.** -/
theorem consistent_iff_tracksNew {env : Env} {ops : List Op}
    (hinv : Inventory (ops.flatMap Op.reports)) (hne : ∀ op ∈ ops, op.NonEmpty) :
    (∀ n, Consistent env (run (Op.step env) (ops.take n) {})) ↔
      Along (Op.step env) (fun r op => op.TracksNew env r) ops {} := by
  have hL : Along (Op.step env) (fun _ op => op.NonEmpty ∧
      ∀ x ∈ op.reports, x ∈ ops.flatMap Op.reports) ops {} :=
    along_of_forall fun op hop =>
      ⟨hne op hop, fun x hx => List.mem_flatMap.mpr ⟨op, hop, hx⟩⟩
  have hinit : Indexed {} := by
    refine ⟨fun cg p => iff_of_false (by simp) ?_, fun p entry h => absurd h (by simp)⟩
    rintro ⟨_, _, _, ⟨entry, hentry, _⟩, _⟩
    exact absurd hentry (by simp)
  have hiff : ∀ n, Consistent env (run (Op.step env) (ops.take n) {}) ↔
      Indexed (run (Op.step env) (ops.take n) {}) := by
    intro n
    refine consistent_iff hinv (Sound.init.run hinv fun x hx => ?_)
    obtain ⟨op, hop, hx⟩ := List.mem_flatMap.mp hx
    exact List.mem_flatMap.mpr ⟨op, List.mem_of_mem_take hop, hx⟩
  rw [forall_congr' hiff]
  exact forall_take_iff (J := Sound (ops.flatMap Op.reports))
    (fun r op hs hop => hs.step hinv hop.2)
    (fun r op hs hop h => h.step_iff hinv hs hop.2 hop.1) Sound.init hinit hL

namespace Sample

def sidecar : PodInput :=
  { pod "a" "c2" 8 with containers := (∅ : GoMap _ _).insert "c2" ⟨⟨"sidecar", 8⟩, ""⟩ }

def extended : List Op := [.addPod (pod "a" "c1" 7), .addPod sidecar]

theorem nonEmpty_extended : ∀ op ∈ extended, op.NonEmpty := by
  intro op hop
  rcases List.mem_pair.mp hop with rfl | rfl
  · exact ⟨"c1", _, rfl⟩
  · exact ⟨"c2", _, rfl⟩

/-- The tracker fails for the second container, whose pod is cached. -/
theorem consistent_iff_tracksNew_extended :
    Consistent (.failsAt 1) (run (Op.step (.failsAt 1)) extended {}) := by
  refine (consistent_iff_tracksNew (by decide) nonEmpty_extended).mpr
    ⟨fun _ t ht => ?_, fun hnone => ?_, trivial⟩ 2
  · have hcalls : (pod "a" "c1" 7).trackerCalls (.failsAt 1) {} = [0] := by decide +kernel
    rw [hcalls, List.mem_singleton] at ht
    rw [ht]
    rfl
  · have hsome : ((run (Op.step (.failsAt 1)) [.addPod (pod "a" "c1" 7)] {}).podCache.lookup
        "a").isSome = true := by decide +kernel
    exact absurd hnone (Option.isSome_iff_ne_none.mp hsome)

/-- The tracker fails for the first container of a pod: its cgroup is in the index for good. -/
theorem dangling :
    Inventory ((.addPod (pod "a" "c1" 7) :: [.removePod "a" "c1"]).flatMap Op.reports) ∧
    (run (Op.step (.failsAt 0)) [.addPod (pod "a" "c1" 7)] {}).cgroupIDToPodID.lookup 7
      = some "a" ∧
    (run (Op.step (.failsAt 0)) [.addPod (pod "a" "c1" 7)] {}).podCache.entries.length = 0 ∧
    (run (Op.step (.failsAt 0)) [.addPod (pod "a" "c1" 7), .removePod "a" "c1"]
      {}).cgroupIDToPodID.lookup 7 = some "a" := by
  refine ⟨by decide, by decide +kernel, by decide +kernel, by decide +kernel⟩

end Sample

end RuntimeEnforcer
