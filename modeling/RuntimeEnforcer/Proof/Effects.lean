import RuntimeEnforcer.Proof.Reconcile

/-!
# What the other operations do

Deleting a policy, and adding and removing a pod's containers: for each, what is left when it
returns and when it fails.
-/

set_option autoImplicit false

namespace RuntimeEnforcer

open Lib

/-! ## Deleting a policy -/

variable {env : Env}

def PolicyByContainer.ids (pol : PolicyByContainer) : Set PolicyID :=
  {id | ∃ n, pol.lookup n = some id}

/-- A state of deleting the ids of `pol`, those in `V` being done. -/
structure Deleting (pol : PolicyByContainer) (V : Set PolicyID) (m₀ m : BpfMaps) : Prop where
  lookup : ∀ cg, m.cgToPolicy.lookup cg = m₀.cgToPolicy.lookup cg ∨
    m.cgToPolicy.lookup cg = none ∧ ∃ id ∈ pol.ids, m₀.cgToPolicy.lookup cg = some id
  gone : ∀ id ∈ V, (∀ cg, m.cgToPolicy.lookup cg ≠ some id) ∧ (∀ i, m.polStrMaps i id = none) ∧
    m.policySettings id = none
  pending : ∀ id, id ∉ V → m.policySettings id = m₀.policySettings id
  kept : ∀ id, id ∉ pol.ids → SameId id m₀ m

/-- The loop of `HandleWPDelete` has failed, at an id that is not done. -/
structure DeleteFails (env : Env) (pol : PolicyByContainer) (w₀ : World) (e : ResolverErr)
    (w : World) : Prop where
  isBpf : e.isBpf = true
  deleting : ∃ V, Deleting pol V w₀.maps w.maps ∧ ∃ id ∈ pol.ids, id ∉ V
  fails : Fails env.toManagerEnv (∀ id ∈ pol.ids, 0 < id) (fun _ => True) w₀ w

section

variable {env : Env} {key : NamespacedPolicyName} {pol : PolicyByContainer} {V : Set PolicyID}
  {m₀ m m' : BpfMaps} {w₀ w : World} {n : ContainerName} {id : PolicyID}

theorem Deleting.refl : Deleting pol ∅ m₀ m₀ :=
  ⟨fun _ => .inl rfl, fun _ h => absurd h (by simp), fun _ _ => rfl, fun _ _ => SameId.refl⟩

theorem Deleting.releases (h : Deleting pol V m₀ m) (hid : id ∈ pol.ids)
    (hr : Releases id m m') : Deleting pol V m₀ m' where
  lookup := by
    intro cg
    rcases hr.lookup cg with hl | ⟨hold, hl⟩
    · rw [hl]
      exact h.lookup cg
    · rcases h.lookup cg with hl₀ | hl₀
      · exact .inr ⟨hl, id, hid, hl₀.symm.trans hold⟩
      · exact absurd hold (by simp [hl₀.1])
  gone := by
    intro d hd
    obtain ⟨h₁, h₂, h₃⟩ := h.gone d hd
    rw [hr.polStrMaps, hr.policySettings]
    refine ⟨fun cg hcg => ?_, h₂, h₃⟩
    rcases hr.lookup cg with hl | hl
    · exact h₁ cg (hl.symm.trans hcg)
    · exact absurd hcg (by simp [hl.2])
  pending := by
    intro d hd
    rw [hr.policySettings]
    exact h.pending d hd
  kept := fun d hd => (h.kept d hd).trans
    ⟨fun i => by rw [hr.polStrMaps], by rw [hr.policySettings]⟩

theorem Deleting.clearing (h : Deleting pol V m₀ m) (hid : id ∈ pol.ids)
    (hr : Rewrites id (fun _ => none) none m m')
    (hset : m'.policySettings = m.policySettings) : Deleting pol V m₀ m' where
  lookup := by
    intro cg
    rw [hr.cgToPolicy]
    exact h.lookup cg
  gone := by
    intro d hd
    obtain ⟨h₁, h₂, h₃⟩ := h.gone d hd
    rw [hr.cgToPolicy, hset]
    refine ⟨h₁, fun i => ?_, h₃⟩
    by_cases heq : d = id
    · subst heq
      exact (hr.classes i).elim (fun h => h.trans (h₂ i)) fun h => h
    · exact ((hr.others d heq).strings i).trans (h₂ i)
  pending := by
    intro d hd
    rw [hset]
    exact h.pending d hd
  kept := by
    intro d hd
    refine (h.kept d hd).trans (hr.others d ?_)
    rintro rfl
    exact hd hid

theorem Deleting.cleared (h : Deleting pol V m₀ m) (hid : id ∈ pol.ids)
    (hub : ∀ cg, m.cgToPolicy.lookup cg ≠ some id)
    (hr : Rewrote env.toManagerEnv id (fun _ => none) none w₀ w) (hw₀ : w₀.maps = m) :
    Deleting pol (V ∪ {id}) m₀ w.maps := by
  subst hw₀
  have hrw := hr.rewrites
  constructor
  case lookup =>
    intro cg
    rw [hrw.cgToPolicy]
    exact h.lookup cg
  case gone =>
    intro d hd
    rw [hrw.cgToPolicy]
    by_cases heq : d = id
    · subst heq
      exact ⟨hub, hr.stored, hr.settings⟩
    · obtain ⟨h₁, h₂, h₃⟩ := h.gone d (hd.resolve_right heq)
      have hs := hrw.others d heq
      exact ⟨h₁, fun i => (hs.strings i).trans (h₂ i), hs.settings.trans h₃⟩
  case pending =>
    intro d hd
    rw [(hrw.others d fun heq => hd (.inr heq)).settings]
    exact h.pending d fun hV => hd (.inl hV)
  case kept =>
    intro d hd
    refine (h.kept d hd).trans (hrw.others d ?_)
    rintro rfl
    exact hd hid

theorem deleteContainer_ends (hid : pol.lookup n = some id) (hV : id ∉ V)
    (h : Deleting pol V w₀.maps w.maps)
    (hr : Runs env.toManagerEnv (fun _ => True) w₀ w) :
    Ends (deleteContainer env key ⟨n, id⟩ w)
      (fun _ w' => Deleting pol (V ∪ {id}) w₀.maps w'.maps ∧
        Runs env.toManagerEnv (fun _ => True) w₀ w')
      (DeleteFails env pol w₀) := by
  have hmem : id ∈ pol.ids := ⟨n, hid⟩
  unfold deleteContainer
  refine Ends.bind ((call_ends (handled_ends removePolicyFromCgroups_ends)).mono ?_ ?_)
  · rintro _ w₁ ⟨hr₁, hrel, hub⟩
    have h₁ := h.releases hmem hrel
    have hruns₁ := hr.trans (hr₁.mono fun _ _ => trivial)
    refine (call_ends clearPolicyIDFromBPF_ends).mono ?_ ?_
    · intro _ w₂ hw₂
      exact ⟨h₁.cleared hmem hub hw₂ rfl, hruns₁.trans (hw₂.runs.mono fun _ _ => trivial)⟩
    · rintro _ w₂ ⟨⟨hf, hset⟩, b, rfl⟩
      have hrw := hf.moves.maps Rewrites.refl
      exact ⟨rfl, ⟨V, h₁.clearing hmem hrw hset, id, hmem, hV⟩,
        hruns₁.trans_fails (hf.mono (fun _ => trivial) fun _ _ => trivial)⟩
  · rintro _ w₁ ⟨hf, b, rfl⟩
    have hrel := hf.moves.maps (⟨rfl, rfl, rfl, fun _ => .inl rfl⟩ : Releases id w.maps w.maps)
    exact ⟨rfl, ⟨V, h.releases hmem hrel, id, hmem, hV⟩,
      hr.trans_fails (hf.mono (fun hpos => hpos id hmem) fun _ _ => trivial)⟩

end

theorem deleteContainers_ends {key : NamespacedPolicyName} {pol : PolicyByContainer} {w₀ : World}
    (hinj : ∀ n n' id, pol.lookup n = some id → pol.lookup n' = some id → n = n') :
    Ends (deleteContainers env key pol w₀)
      (fun _ w => Deleting pol pol.ids w₀.maps w.maps ∧
        Runs env.toManagerEnv (fun _ => True) w₀ w)
      (DeleteFails env pol w₀) := by
  unfold deleteContainers
  refine Ends.bind (ends_ok.mpr ?_)
  -- the ids done are those of the names that are not left to visit
  let done : List (Entry ContainerName PolicyID) → Set PolicyID := fun rest =>
    {id | ∃ n, pol.lookup n = some id ∧ n ∉ rest.map Sigma.fst}
  let I : List (Entry ContainerName PolicyID) → World → Prop := fun rest w =>
    (rest.map Sigma.fst).Nodup ∧ (∀ e ∈ rest, pol.lookup e.1 = some e.2) ∧
    Deleting pol (done rest) w₀.maps w.maps ∧ Runs env.toManagerEnv (fun _ => True) w₀ w
  have hloop := Ends.forM (f := deleteContainer env key) (E := DeleteFails env pol w₀) I
    (fun e rest w hI => ?step) (env.policies.range w₀.clock pol) w₀ ?init
  case init =>
    refine ⟨env.policies.nodup_range _ _, fun e he => (env.policies.mem_range _).mp he, ?_,
      Runs.refl⟩
    have hnone : done (env.policies.range w₀.clock pol) = ∅ := by
      ext id
      refine ⟨?_, fun h => h.elim⟩
      rintro ⟨n, hn, hmem⟩
      exact hmem (List.mem_map.mpr ⟨⟨n, id⟩, (env.policies.mem_range _).mpr hn, rfl⟩)
    rw [hnone]
    exact Deleting.refl
  case step =>
    obtain ⟨hnd, hall, hdel, hruns⟩ := hI
    obtain ⟨hnot, hnd'⟩ := List.nodup_cons.mp hnd
    have he := hall e (by simp)
    have hV : e.2 ∉ done (e :: rest) := by
      rintro ⟨n, hn, hmem⟩
      exact hmem (by simp [hinj n e.1 e.2 hn he])
    have hdone : done (e :: rest) ∪ {e.2} = done rest := by
      ext id
      constructor
      · rintro (⟨n, hn, hmem⟩ | rfl)
        · exact ⟨n, hn, fun h => hmem (List.mem_cons_of_mem _ h)⟩
        · exact ⟨e.1, he, hnot⟩
      · rintro ⟨n, hn, hmem⟩
        by_cases heq : n = e.1
        · subst heq
          exact .inr (Option.some.inj (hn.symm.trans he))
        · exact .inl ⟨n, hn, fun h => (List.mem_cons.mp h).elim heq hmem⟩
    refine (deleteContainer_ends he hV hdel hruns).mono ?_ (fun _ _ h => h)
    rintro _ w' ⟨hdel', hruns'⟩
    exact ⟨hnd', fun e' he' => hall e' (List.mem_cons_of_mem _ he'), hdone ▸ hdel', hruns'⟩
  refine hloop.mono (fun _ w h => ⟨?_, h.2.2.2⟩) (fun _ _ h => h)
  have hall : done [] = pol.ids := by
    ext id
    exact ⟨fun ⟨n, hn, _⟩ => ⟨n, hn⟩, fun ⟨n, hn⟩ => ⟨n, hn, by simp⟩⟩
  exact hall ▸ h.2.2.1

/-! ## Adding a pod's containers -/

variable {w : World} {r₀ : Resolver} {cid : ContainerID}

/-- `st` is the entry of `pod` so far: the cache's own if the pod was cached in `r₀`. -/
structure Extending (r₀ : Resolver) (pod : PodInput) (st : PodEntry) (r : Resolver) : Prop where
  otherPods : ∀ p, p ≠ pod.podMeta.id → r.podCache.lookup p = r₀.podCache.lookup p
  entry : r.podCache.lookup pod.podMeta.id
    = (r₀.podCache.lookup pod.podMeta.id).map fun _ => st

/-- A state of adding the containers of `pod` to the entry `st₀`, those in `V` being done. -/
structure Adding (r₀ : Resolver) (pod : PodInput) (st₀ : PodEntry) (V : Set ContainerID)
    (st : PodEntry) (r : Resolver) : Prop extends Extending r₀ pod st r where
  wpState : r.wpState = r₀.wpState
  next : r.nextPolicyID = r₀.nextPolicyID
  maps : Tracks r₀.world.maps r.world.maps
  podMeta : st.podMeta = st₀.podMeta
  grows : ∀ cid c, st₀.containers.lookup cid = some c → st.containers.lookup cid = some c
  source : ∀ cid c, st.containers.lookup cid = some c → st₀.containers.lookup cid = some c ∨
    ∃ ci, pod.containers.lookup cid = some ci ∧ ci.toContainerMeta = c
  done : ∀ cid ∈ V, ∀ ci, pod.containers.lookup cid = some ci →
    st.containers.lookup cid = some ci.toContainerMeta

/-- `st₀` is the entry a report of `pod` starts from: the cached one, or an empty one. -/
def Starts (r₀ : Resolver) (pod : PodInput) (st₀ : PodEntry) : Prop :=
  r₀.podCache.lookup pod.podMeta.id = none ∧ (∀ cid, st₀.containers.lookup cid = none) ∨
    r₀.podCache.lookup pod.podMeta.id = some st₀

/-- A container of the report is in the entry with another name or cgroup. -/
def Conflict (pod : PodInput) (st₀ : PodEntry) : Prop :=
  ∃ cid ci info, pod.containers.lookup cid = some ci ∧ st₀.containers.lookup cid = some info ∧
    info ≠ ci.toContainerMeta

section

variable {env : Env} {pod : PodInput} {r₀ r : Resolver} {st₀ st : PodEntry} {V : Set ContainerID}
  {cid : ContainerID} {ci : ContainerInput}

/-- The entry with a container as it is reported. -/
def PodEntry.put (st : PodEntry) (cid : ContainerID) (ci : ContainerInput) : PodEntry :=
  { st with containers := st.containers.insert cid ci.toContainerMeta }

theorem PodEntry.lookup_put {cid' : ContainerID} : (st.put cid ci).containers.lookup cid'
      = if cid' = cid then some ci.toContainerMeta else st.containers.lookup cid' :=
  GoMap.lookup_insert_eq

/-- **What one container of a report does.** It is in the entry already, as it is reported or
otherwise; or it is new, and is put in the entry and the index before the tracker is called. -/
theorem addContainer_cases {cached : Bool} :
    Ends (addContainer env pod cached st ⟨cid, ci⟩ r)
      (fun st' r' => st.containers.lookup cid = some ci.toContainerMeta ∧ st' = st ∧ r' = r ∨
        st.containers.lookup cid = none ∧ env.fault r.world.clock = none ∧ st' = st.put cid ci ∧
          ∃ w, Moves (Tracks r.world.maps) r.world w ∧
            r' = { storeContainer pod cached (st.put cid ci) cid ci.cgroupID r with
              world := w
              events := .tracked ci.cgroupID :: .added pod.podMeta.id cid :: r.events })
      (fun e r' => (∃ info, st.containers.lookup cid = some info ∧ info ≠ ci.toContainerMeta ∧
          r' = r) ∨
        st.containers.lookup cid = none ∧ env.fault r.world.clock ≠ none ∧ e.isBpf = true ∧
          ∃ w, Moves (Tracks r.world.maps) r.world w ∧
            r' = { storeContainer pod cached (st.put cid ci) cid ci.cgroupID r with
              world := w }) := by
  unfold addContainer
  cases hst : st.containers.lookup cid with
  | some info =>
    by_cases hsame : info.cgroupID = ci.cgroupID ∧ info.name = ci.name
    · simp only [if_pos hsame]
      exact ends_ok.mpr (.inl ⟨congrArg some (ContainerMeta.ext hsame.2 hsame.1), rfl, rfl⟩)
    · simp only [if_neg hsame]
      exact ends_error.mpr (.inl ⟨info, rfl, fun heq => hsame (by simp [heq]), rfl⟩)
  | none =>
    refine Ends.bind (ends_ok.mpr (Ends.bind ?_))
    unfold trackContainer
    refine Ends.bind (Ends.zoom ((call_ends (handled_ends (updateCgTrackerMap_ends.and
      updateCgTrackerMap_fault))).mono ?_ ?_))
    · rintro _ w ⟨hw, hf⟩
      exact ends_ok.mpr (ends_ok.mpr (.inr ⟨rfl, hf, rfl, w, hw, rfl⟩))
    · rintro _ w ⟨⟨hw, hf⟩, _, rfl⟩
      exact .inr ⟨rfl, hf, rfl, w, hw, rfl⟩

theorem Extending.refl (h : Starts r₀ pod st₀) : Extending r₀ pod st₀ r₀ where
  otherPods := fun _ _ => rfl
  entry := by rcases h with ⟨h, _⟩ | h <;> simp [h]

theorem Extending.store (h : Extending r₀ pod st r) {st' : PodEntry} {cg : CgroupID}
    {events : List CacheEvent} :
    Extending r₀ pod st' { storeContainer pod (r₀.podCache.lookup pod.podMeta.id).isSome st' cid cg
      r with world := w, events } where
  otherPods := by
    intro p hp
    rw [← h.otherPods p hp]
    simp only [storeContainer]
    split
    · rw [GoMap.lookup_insert_eq, if_neg hp]
    · rfl
  entry := by
    have he := h.entry
    simp only [storeContainer]
    cases hk : r₀.podCache.lookup pod.podMeta.id with
    | none =>
      rw [hk] at he
      simpa using he
    | some st' => simp

theorem Adding.refl (h : Starts r₀ pod st₀) : Adding r₀ pod st₀ ∅ st₀ r₀ where
  toExtending := .refl h
  wpState := rfl
  next := rfl
  maps := ⟨rfl, rfl, rfl⟩
  podMeta := rfl
  grows := fun _ _ h => h
  source := fun _ _ h => .inl h
  done := fun _ h => absurd h (by simp)

variable (h : Adding r₀ pod st₀ V st r)

include h

theorem Adding.present (hin : pod.containers.lookup cid = some ci)
    (hst : st.containers.lookup cid = some ci.toContainerMeta) :
    Adding r₀ pod st₀ (V ∪ {cid}) st r :=
  { h with
    done := by
      rintro cid' (hV | rfl) ci' hci'
      · exact h.done cid' hV ci' hci'
      · obtain rfl : ci = ci' := Option.some.inj (hin.symm.trans hci')
        exact hst }

theorem Adding.store (hin : pod.containers.lookup cid = some ci)
    (hst : st.containers.lookup cid = none) (hw : Tracks r.world.maps w.maps)
    {events : List CacheEvent} :
    Adding r₀ pod st₀ (V ∪ {cid}) (st.put cid ci)
      { storeContainer pod (r₀.podCache.lookup pod.podMeta.id).isSome (st.put cid ci) cid
          ci.cgroupID r with world := w, events } where
  toExtending := h.toExtending.store
  wpState := h.wpState
  next := h.next
  maps := ⟨hw.1.trans h.maps.1, hw.2.trans h.maps.2, hw.3.trans h.maps.3⟩
  podMeta := h.podMeta
  grows := by
    intro cid' c hc
    have hold := h.grows cid' c hc
    rw [PodEntry.lookup_put, if_neg, hold]
    rintro rfl
    exact absurd hold (by simp [hst])
  source := by
    intro cid' c hc
    rw [PodEntry.lookup_put] at hc
    split at hc
    · next heq => exact .inr ⟨ci, heq ▸ hin, Option.some.inj hc⟩
    · exact h.source cid' c hc
  done := by
    intro cid' hV ci' hci'
    rw [PodEntry.lookup_put]
    by_cases heq : cid' = cid
    · subst heq
      obtain rfl : ci = ci' := Option.some.inj (hin.symm.trans hci')
      rw [if_pos rfl]
    · rw [if_neg heq]
      exact h.done cid' (hV.resolve_right heq) ci' hci'

/-- A container found in the entry with another name or cgroup was there before: the report's own
would be identical. -/
theorem Adding.conflict (hin : pod.containers.lookup cid = some ci) {info : ContainerMeta}
    (hst : st.containers.lookup cid = some info) (hne : info ≠ ci.toContainerMeta) :
    Conflict pod st₀ := by
  refine ⟨cid, ci, info, hin, ?_, hne⟩
  rcases h.source cid info hst with hold | ⟨ci', hci', rfl⟩
  · exact hold
  · obtain rfl : ci = ci' := Option.some.inj (hin.symm.trans hci')
    exact absurd rfl hne

theorem addContainer_ends (hin : pod.containers.lookup cid = some ci) :
    Ends (addContainer env pod (r₀.podCache.lookup pod.podMeta.id).isSome st ⟨cid, ci⟩ r)
      (fun st' r' => Adding r₀ pod st₀ (V ∪ {cid}) st' r')
      (fun e r' => (e.isBpf = true ∨ Conflict pod st₀) ∧
        ∃ V' st', Adding r₀ pod st₀ V' st' r') := by
  refine addContainer_cases.mono ?_ ?_
  · rintro st' r' (⟨hst, rfl, rfl⟩ | ⟨hst, -, rfl, w, hw, rfl⟩)
    · exact h.present hin hst
    · exact h.store hin hst (hw.maps ⟨rfl, rfl, rfl⟩)
  · rintro e r' (⟨info, hst, hne, rfl⟩ | ⟨hst, -, hbpf, w, hw, rfl⟩)
    · exact ⟨.inr (h.conflict hin hst hne), V, st, h⟩
    · exact ⟨.inl hbpf, _, _, h.store hin hst (hw.maps ⟨rfl, rfl, rfl⟩)⟩

end

theorem starts_getD (r₀ : Resolver) (pod : PodInput) :
    Starts r₀ pod ((r₀.podCache.lookup pod.podMeta.id).getD (convertPodData pod)) := by
  cases hc : r₀.podCache.lookup pod.podMeta.id with
  | none => exact .inl ⟨hc, fun _ => rfl⟩
  | some st => exact .inr hc

theorem addContainers_ends {pod : PodInput} {st₀ : PodEntry} (hk : Starts r₀ pod st₀) :
    Ends ((env.inputs.range r₀.world.clock pod.containers).foldlM
        (addContainer env pod (r₀.podCache.lookup pod.podMeta.id).isSome) st₀ r₀)
      (fun st r => Adding r₀ pod st₀ {cid | (pod.containers.lookup cid).isSome} st r)
      (fun e r => (e.isBpf = true ∨ Conflict pod st₀) ∧ ∃ V st, Adding r₀ pod st₀ V st r) := by
  rw [← env.inputs.keys_range r₀.world.clock pod.containers]
  exact Ends.foldlM_adds (fun e : Entry ContainerID ContainerInput => {e.1})
    (fun V st r => Adding r₀ pod st₀ V st r) _
    (fun e he V st r hI => addContainer_ends hI ((env.inputs.mem_range _).mp he))
    ∅ st₀ r₀ (Adding.refl hk)

/-- The containers of the report, and those of its pod that are cached. -/
def podMetas (r₀ : Resolver) (pod : PodInput) : Set ContainerMeta :=
  {c | (∃ pm cid, r₀.Cached pod.podMeta.id pm cid c) ∨
    ∃ cid ci, pod.containers.lookup cid = some ci ∧ ci.toContainerMeta = c}

/-- What every report of a pod leaves behind. -/
structure AddEffect (r₀ : Resolver) (pod : PodInput) (r : Resolver) : Prop where
  wpState : r.wpState = r₀.wpState
  next : r.nextPolicyID = r₀.nextPolicyID
  ids : ∀ id, SameId id r₀.world.maps r.world.maps
  cachedFrom : ∀ p pm cid c, r.Cached p pm cid c → r₀.Cached p pm cid c ∨
    p = pod.podMeta.id ∧ ∃ ci, pod.containers.lookup cid = some ci ∧ ci.toContainerMeta = c
  cachedKeeps : ∀ p pm cid c, r₀.Cached p pm cid c → r.Cached p pm cid c
  binding : ∀ cg id, r.bound cg = some id → r₀.bound cg = some id ∨
    ∃ p pm cid c, r.Cached p pm cid c ∧ c.cgroupID = cg ∧ r.pol pm.policyKey c.name = some id

/-- The pod's containers that have a policy are bound to it, and nothing else has changed. -/
structure AddBinds (r₀ : Resolver) (pod : PodInput) (r : Resolver) : Prop where
  bound : ∀ pm cid c, r.Cached pod.podMeta.id pm cid c → pm.policyName ≠ "" →
    ∀ id, r.pol pm.policyKey c.name = some id → r.bound c.cgroupID = some id
  kept : ∀ cg, (∀ pm cid c, r.Cached pod.podMeta.id pm cid c → c.cgroupID ≠ cg) →
    r.bound cg = r₀.bound cg

section

variable {c : ContainerMeta} {pm : PodMeta} {p : PodID}

variable {env : Env} {pod : PodInput} {r₀ r : Resolver} {st₀ st : PodEntry} {V : Set ContainerID}

theorem Adding.cachedFrom (h : Adding r₀ pod st₀ V st r) (hk : Starts r₀ pod st₀)
    (hc : r.Cached p pm cid c) :
    r₀.Cached p pm cid c ∨
      p = pod.podMeta.id ∧ ∃ ci, pod.containers.lookup cid = some ci ∧ ci.toContainerMeta = c := by
  obtain ⟨entry, hentry, hpm, hcid⟩ := hc
  by_cases hp : p = pod.podMeta.id
  · subst hp
    have he := h.entry
    rw [hentry] at he
    rcases hk with ⟨hk, _⟩ | hk
    · rw [hk] at he
      exact absurd he (by simp)
    · rw [hk] at he
      obtain rfl : entry = st := Option.some.inj he
      rcases h.source cid c hcid with hold | hci
      · exact .inl ⟨st₀, hk, h.podMeta.symm.trans hpm, hold⟩
      · exact .inr ⟨rfl, hci⟩
  · rw [h.otherPods p hp] at hentry
    exact .inl ⟨entry, hentry, hpm, hcid⟩

theorem Adding.cachedKeeps (h : Adding r₀ pod st₀ V st r) (hk : Starts r₀ pod st₀)
    (hc : r₀.Cached p pm cid c) : r.Cached p pm cid c := by
  obtain ⟨entry, hentry, hpm, hcid⟩ := hc
  by_cases hp : p = pod.podMeta.id
  · subst hp
    rcases hk with ⟨hk, _⟩ | hk
    · exact absurd hentry (by simp [hk])
    · obtain rfl : st₀ = entry := Option.some.inj (hk.symm.trans hentry)
      exact ⟨st, by rw [h.entry, hk]; rfl, h.podMeta.trans hpm, h.grows cid c hcid⟩
  · exact ⟨entry, by rw [h.otherPods p hp, hentry], hpm, hcid⟩

theorem Adding.effect (h : Adding r₀ pod st₀ V st r)
    (hk : Starts r₀ pod st₀) : AddEffect r₀ pod r where
  wpState := h.wpState
  next := h.next
  ids := fun _ => ⟨fun i => by rw [h.maps.polStrMaps], by rw [h.maps.policySettings]⟩
  cachedFrom := fun _ _ _ _ hc => h.cachedFrom hk hc
  cachedKeeps := fun _ _ _ _ hc => h.cachedKeeps hk hc
  binding := by
    intro cg id hid
    unfold Resolver.bound at hid
    rw [h.maps.cgToPolicy] at hid
    exact .inl hid

/-- Put the entry in the cache, with the maps `w`. -/
def Resolver.putPod (r : Resolver) (podID : PodID) (st : PodEntry) (w : World) : Resolver :=
  { r with podCache := r.podCache.insert podID st, world := w }

theorem Resolver.cached_putPod {podID : PodID} : (r.putPod podID st w).Cached p pm cid c ↔
      if p = podID then st.podMeta = pm ∧ st.containers.lookup cid = some c
      else r.Cached p pm cid c := by
  unfold Resolver.Cached Resolver.putPod
  simp only [GoMap.lookup_insert_eq]
  by_cases hp : p = podID
  · simp [hp]
  · simp [hp]

theorem Adding.effect_putPod (h : Adding r₀ pod st₀ V st r) (hk : Starts r₀ pod st₀)
    (hids : ∀ id, SameId id r.world.maps w.maps)
    (hbind : ∀ cg id, w.maps.cgToPolicy.lookup cg = some id → r.bound cg = some id ∨
      ∃ cid c, st.containers.lookup cid = some c ∧ c.cgroupID = cg ∧
        r₀.pol st.podMeta.policyKey c.name = some id) :
    AddEffect r₀ pod (r.putPod pod.podMeta.id st w) where
  wpState := h.wpState
  next := h.next
  ids := fun id => (⟨fun i => by rw [h.maps.polStrMaps], by rw [h.maps.policySettings]⟩ :
    SameId id r₀.world.maps r.world.maps).trans (hids id)
  cachedFrom := by
    intro p pm cid c hc
    rw [Resolver.cached_putPod] at hc
    split at hc
    · next hp =>
      obtain ⟨hpm, hcid⟩ := hc
      rcases h.source cid c hcid with hold | hci
      · rcases hk with ⟨_, hnone⟩ | hk
        · exact absurd hold (by simp [hnone])
        · exact .inl ⟨st₀, hp ▸ hk, h.podMeta.symm.trans hpm, hold⟩
      · exact .inr ⟨hp, hci⟩
    · exact h.cachedFrom hk hc
  cachedKeeps := by
    intro p pm cid c hc
    rw [Resolver.cached_putPod]
    split
    · next hp =>
      obtain ⟨entry, hentry, hpm, hcid⟩ := hc
      rw [hp] at hentry
      rcases hk with ⟨hk, _⟩ | hk
      · exact absurd hentry (by simp [hk])
      · obtain rfl : st₀ = entry := Option.some.inj (hk.symm.trans hentry)
        exact ⟨h.podMeta.trans hpm, h.grows cid c hcid⟩
    · exact h.cachedKeeps hk hc
  binding := by
    intro cg id hid
    rcases hbind cg id hid with hold | ⟨cid, c, hcid, hcg, hpol⟩
    · left
      unfold Resolver.bound at hold
      rw [h.maps.cgToPolicy] at hold
      exact hold
    · refine .inr ⟨pod.podMeta.id, st.podMeta, cid, c, ?_, hcg, ?_⟩
      · rw [Resolver.cached_putPod, if_pos rfl]
        exact ⟨rfl, hcid⟩
      · unfold Resolver.pol Resolver.putPod
        rw [h.wpState]
        exact hpol

theorem applyPolicyToPodIfPresent_ends {wpState : GoMap NamespacedPolicyName WpInfo}
    (hone : OneName st.metas) :
    Ends (applyPolicyToPodIfPresent env wpState st w)
      (fun _ w' =>
        Sweeping st.metas (((wpState.lookup st.podMeta.policyKey).getD {}).polByContainer)
          ∅ w.maps w'.maps ∧
        ∀ c ∈ st.metas, st.podMeta.policyName ≠ "" → ∀ info id,
          wpState.lookup st.podMeta.policyKey = some info →
          info.polByContainer.lookup c.name = some id →
          w'.maps.cgToPolicy.lookup c.cgroupID = some id)
      (fun e w' => Sweeping st.metas
          (((wpState.lookup st.podMeta.policyKey).getD {}).polByContainer) ∅ w.maps w'.maps ∧
        (e.isBpf = true ∨ wpState.lookup st.podMeta.policyKey = none)) := by
  unfold applyPolicyToPodIfPresent
  by_cases hlabel : st.policyName = ""
  · rw [if_pos hlabel]
    exact ends_ok.mpr ⟨Sweeping.refl, fun _ _ hne => absurd hlabel hne⟩
  rw [if_neg hlabel]
  cases hinfo : wpState.lookup st.podMeta.policyKey with
  | none => exact ends_error.mpr ⟨Sweeping.refl, .inr rfl⟩
  | some info =>
    -- the loop of a reconcile that drops nothing, on a policy with no other state
    have hplan : Plan st.metas info.polByContainer ∅ :=
      ⟨fun _ _ h => absurd h (by simp), fun _ _ _ h => absurd h (by simp), hone⟩
    have hstart : SweepInv env st.metas info.polByContainer ∅ ⟨∅, 0, w⟩ ∅ ∅ ⟨∅, 0, w⟩ :=
      ⟨Swept.refl, by simp, by simp, Runs.refl, fun _ _ h => absurd h (by simp)⟩
    refine (applyPolicyToPod_ends hplan (fun _ h => h) hstart).mono ?_ ?_
    · intro _ w' h
      refine ⟨h.swept.sweeping h.subD h.subB, fun c hc _ info' id hinfo' hid => ?_⟩
      obtain rfl := Option.some.inj hinfo'
      exact h.swept.bound c (.inr hc) id hid
    · intro e w' h
      obtain ⟨D, hp⟩ := h.partly
      exact ⟨hp.sweeping, .inl h.isBpf⟩

theorem Sweeping.sameId {M : Set ContainerMeta} {applied : PolicyByContainer} {m₁ m : BpfMaps}
    (h : Sweeping M applied ∅ m₁ m) (id : PolicyID) : SameId id m₁ m := by
  rcases h.first id with ⟨c, _, hid, _⟩ | hs
  · exact absurd hid (by simp)
  · exact hs

theorem Sweeping.lookup_cases {M : Set ContainerMeta} {applied : PolicyByContainer}
    {m₁ m : BpfMaps} (h : Sweeping M applied ∅ m₁ m) (cg : CgroupID) :
    m.cgToPolicy.lookup cg = m₁.cgToPolicy.lookup cg ∨ ∃ c ∈ M, c.cgroupID = cg ∧
      ∃ id, applied.lookup c.name = some id ∧ m.cgToPolicy.lookup cg = some id := by
  rcases h.lookup cg with hl | ⟨_, _, _, hsome, _⟩ | hl
  · exact .inl hl
  · exact absurd hsome (by simp)
  · exact .inr hl

theorem Resolver.pol_eq_getD (r : Resolver) (key : NamespacedPolicyName) (n : ContainerName) :
    r.pol key n = ((r.wpState.lookup key).getD {}).polByContainer.lookup n := by
  unfold Resolver.pol
  cases r.wpState.lookup key <;> simp

theorem Adding.effect_sweeping (h : Adding r₀ pod st₀ V st r) (hk : Starts r₀ pod st₀)
    (hs : Sweeping st.metas
      ((r.wpState.lookup st.podMeta.policyKey).getD {}).polByContainer ∅ r.world.maps w.maps) :
    AddEffect r₀ pod (r.putPod pod.podMeta.id st w) := by
  refine h.effect_putPod hk hs.sameId fun cg id hid => ?_
  rcases hs.lookup_cases cg with hl | ⟨c, ⟨cid, hcid⟩, hcg, id', hid', hl⟩
  · exact .inl (hl.symm.trans hid)
  · obtain rfl : id' = id := Option.some.inj (hl.symm.trans hid)
    refine .inr ⟨cid, c, hcid, hcg, ?_⟩
    rw [h.wpState] at hid'
    exact (r₀.pol_eq_getD _ _).trans hid'

theorem Adding.binds_sweeping (h : Adding r₀ pod st₀ V st r) (hs : Sweeping st.metas
      ((r.wpState.lookup st.podMeta.policyKey).getD {}).polByContainer ∅ r.world.maps w.maps)
    (hb : ∀ c ∈ st.metas, st.podMeta.policyName ≠ "" → ∀ id,
      r₀.pol st.podMeta.policyKey c.name = some id →
      w.maps.cgToPolicy.lookup c.cgroupID = some id) :
    AddBinds r₀ pod (r.putPod pod.podMeta.id st w) where
  bound := by
    intro pm cid c hc hlabel id hid
    rw [Resolver.cached_putPod, if_pos rfl] at hc
    obtain ⟨rfl, hcid⟩ := hc
    refine hb c ⟨cid, hcid⟩ hlabel id ?_
    unfold Resolver.pol Resolver.putPod at hid
    rw [h.wpState] at hid
    exact hid
  kept := by
    intro cg hcg
    rcases hs.lookup_cases cg with hl | ⟨c, ⟨cid, hcid⟩, hc, _⟩
    · refine hl.trans ?_
      unfold Resolver.bound
      rw [h.maps.cgToPolicy]
    · refine absurd hc (hcg st.podMeta cid c ?_)
      rw [Resolver.cached_putPod, if_pos rfl]
      exact ⟨rfl, hcid⟩

theorem Adding.metas_sub (h : Adding r₀ pod st₀ V st r) (hk : Starts r₀ pod st₀) :
    st.metas ⊆ podMetas r₀ pod := by
  rintro c ⟨cid, hcid⟩
  rcases h.source cid c hcid with hold | ⟨ci, hci, rfl⟩
  · rcases hk with ⟨_, hnone⟩ | hk
    · exact absurd hold (by simp [hnone])
    · exact .inl ⟨st₀.podMeta, cid, st₀, hk, rfl, hold⟩
  · exact .inr ⟨cid, ci, hci, rfl⟩

end

/-- A container of the report is cached with another name or cgroup. -/
def Resolver.Conflicts (r₀ : Resolver) (pod : PodInput) : Prop :=
  ∃ pm cid ci info, pod.containers.lookup cid = some ci ∧ r₀.Cached pod.podMeta.id pm cid info ∧
    info ≠ ci.toContainerMeta

theorem addPodContainerFromNri_ends {pod : PodInput} (hone : OneName (podMetas r₀ pod)) :
    Ends (addPodContainerFromNri env pod r₀)
      (fun _ r => AddEffect r₀ pod r ∧ AddBinds r₀ pod r)
      (fun e r => AddEffect r₀ pod r ∧
        (e.isBpf = true ∨ r₀.Conflicts pod ∨ AddBinds r₀ pod r)) := by
  unfold addPodContainerFromNri
  refine Ends.bind (ends_ok.mpr ?_)
  have hk := starts_getD r₀ pod
  refine Ends.bind ((addContainers_ends hk).mono ?_ ?_)
  · intro st r h
    refine Ends.bind (ends_ok.mpr (Ends.bind (ends_ok.mpr (Ends.zoom ?_))))
    have hst : OneName st.metas := fun c hc c' hc' =>
      hone c (h.metas_sub hk hc) c' (h.metas_sub hk hc')
    refine (applyPolicyToPodIfPresent_ends hst).mono ?_ ?_
    · rintro _ w ⟨hs, hb⟩
      refine ⟨h.effect_sweeping hk hs, h.binds_sweeping hs fun c hc hlabel id hid => ?_⟩
      obtain ⟨info, hinfo, hid⟩ := Option.bind_eq_some_iff.mp hid
      exact hb c hc hlabel info id (h.wpState ▸ hinfo) hid
    · rintro e w ⟨hs, he⟩
      refine ⟨h.effect_sweeping hk hs, he.imp (fun hb => hb) fun hnone => .inr ?_⟩
      refine h.binds_sweeping hs fun c hc hlabel id hid => ?_
      obtain ⟨info, hinfo, _⟩ := Option.bind_eq_some_iff.mp hid
      exact absurd (h.wpState ▸ hnone) (by simp [hinfo])
  · rintro e r ⟨he, V, st, h⟩
    refine ⟨h.effect hk, he.imp (fun hb => hb) ?_⟩
    rintro ⟨cid, ci, info, hci, hinfo, hne⟩
    rcases hk with ⟨_, hnone⟩ | hk
    · exact absurd hinfo (by simp [hnone])
    · exact .inl ⟨_, cid, ci, info, hci, ⟨_, hk, rfl, hinfo⟩, hne⟩

/-! ## Removing a container -/

/-- What the removal of container `cid` of pod `podID` leaves behind. -/
structure RemoveEffect (r₀ : Resolver) (podID : PodID) (cid : ContainerID) (r : Resolver) :
    Prop where
  wpState : r.wpState = r₀.wpState
  next : r.nextPolicyID = r₀.nextPolicyID
  events : r.events = r₀.events
  ids : ∀ id, SameId id r₀.world.maps r.world.maps
  cachedFrom : ∀ p pm cid' c, r.Cached p pm cid' c →
    r₀.Cached p pm cid' c ∧ ¬ (p = podID ∧ cid' = cid)
  cachedKeeps : ∀ p pm cid' c, r₀.Cached p pm cid' c → ¬ (p = podID ∧ cid' = cid) →
    r.Cached p pm cid' c
  binding : ∀ cg id, r.bound cg = some id → r₀.bound cg = some id

/-- The container is unbound, and no other cgroup. -/
structure RemoveUnbinds (r₀ : Resolver) (podID : PodID) (cid : ContainerID) (r : Resolver) :
    Prop where
  unbound : ∀ pm c, r₀.Cached podID pm cid c → r.bound c.cgroupID = none
  kept : ∀ cg, (∀ pm c, r₀.Cached podID pm cid c → c.cgroupID ≠ cg) → r.bound cg = r₀.bound cg

section

variable {r₀ : Resolver} {podID p : PodID} {cid cid' : ContainerID} {pm : PodMeta}
  {c container : ContainerMeta} {state : PodEntry}

/-- The cache without container `cid` of pod `podID`. -/
def Resolver.dropContainer (r₀ : Resolver) (podID : PodID) (cid : ContainerID) (state : PodEntry)
    (cg : CgroupID) (w : World) : Resolver :=
  { r₀ with
    podCache :=
      if state.containers.entries.length = 1 then r₀.podCache.erase podID
      else r₀.podCache.insert podID { state with containers := state.containers.erase cid }
    cgroupIDToPodID := r₀.cgroupIDToPodID.erase cg
    world := w }

theorem Resolver.cached_dropContainer {cg : CgroupID}
    (hstate : r₀.podCache.lookup podID = some state)
    (hcid : state.containers.lookup cid = some container) :
    (r₀.dropContainer podID cid state cg w).Cached p pm cid' c ↔
      r₀.Cached p pm cid' c ∧ ¬ (p = podID ∧ cid' = cid) := by
  unfold Resolver.Cached Resolver.dropContainer
  by_cases hp : p = podID
  · subst hp
    by_cases hone : state.containers.entries.length = 1
    · -- the pod goes with its last container
      simp only [hone, if_true, GoMap.lookup_erase_eq]
      constructor
      · rintro ⟨_, h, _⟩
        exact absurd h (by simp)
      · rintro ⟨⟨entry, hentry, _, hc⟩, hne⟩
        obtain rfl : state = entry := Option.some.inj (hstate.symm.trans hentry)
        exact absurd ⟨trivial, GoMap.eq_of_length_one hone hcid hc⟩ hne
    · simp only [hone, if_false, GoMap.lookup_insert_eq, if_true, Option.some.injEq, true_and]
      constructor
      · rintro ⟨_, rfl, hpm, hc⟩
        rw [GoMap.lookup_erase_eq] at hc
        split at hc
        · exact absurd hc (by simp)
        · next hne => exact ⟨⟨state, hstate, hpm, hc⟩, hne⟩
      · rintro ⟨⟨entry, hentry, hpm, hc⟩, hne⟩
        obtain rfl : state = entry := Option.some.inj (hstate.symm.trans hentry)
        exact ⟨_, rfl, hpm, by rw [GoMap.lookup_erase_eq, if_neg hne, hc]⟩
  · have hlook : (if state.containers.entries.length = 1 then r₀.podCache.erase podID
        else r₀.podCache.insert podID { state with containers := state.containers.erase cid }
        ).lookup p = r₀.podCache.lookup p := by
      split
      · rw [GoMap.lookup_erase_eq, if_neg hp]
      · rw [GoMap.lookup_insert_eq, if_neg hp]
    simp only [hlook, hp, false_and, not_false_eq_true, and_true]

theorem RemoveEffect.refl (h : ∀ pm c, ¬ r₀.Cached podID pm cid c) :
    RemoveEffect r₀ podID cid r₀ where
  wpState := rfl
  next := rfl
  events := rfl
  ids := fun _ => SameId.refl
  cachedFrom := by
    intro p pm cid' c hc
    refine ⟨hc, ?_⟩
    rintro ⟨rfl, rfl⟩
    exact h pm c hc
  cachedKeeps := fun _ _ _ _ hc _ => hc
  binding := fun _ _ h => h

theorem RemoveUnbinds.refl (h : ∀ pm c, ¬ r₀.Cached podID pm cid c) :
    RemoveUnbinds r₀ podID cid r₀ :=
  ⟨fun pm c hc => absurd hc (h pm c), fun _ _ => rfl⟩

end

theorem removePodContainerFromNri_ends {podID : PodID} :
    Ends (removePodContainerFromNri env podID cid r₀)
      (fun _ r => RemoveEffect r₀ podID cid r ∧ RemoveUnbinds r₀ podID cid r)
      (fun e r => RemoveEffect r₀ podID cid r ∧ e.isBpf = true ∧
        ¬ Quiet env.toManagerEnv r₀.world r.world) := by
  unfold removePodContainerFromNri
  refine Ends.bind (ends_ok.mpr ?_)
  cases hstate : r₀.podCache.lookup podID with
  | none =>
    have hnone : ∀ pm c, ¬ r₀.Cached podID pm cid c := by
      rintro pm c ⟨entry, hentry, _⟩
      exact absurd hentry (by simp [hstate])
    exact ends_ok.mpr ⟨RemoveEffect.refl hnone, RemoveUnbinds.refl hnone⟩
  | some state =>
    cases hcid : state.containers.lookup cid with
    | none =>
      have hnone : ∀ pm c, ¬ r₀.Cached podID pm cid c := by
        rintro pm c ⟨entry, hentry, _, hc⟩
        obtain rfl : state = entry := Option.some.inj (hstate.symm.trans hentry)
        exact absurd hc (by simp [hcid])
      simp only [hcid]
      exact ends_ok.mpr ⟨RemoveEffect.refl hnone, RemoveUnbinds.refl hnone⟩
    | some container =>
      simp only [hcid]
      -- what the cache shows does not depend on how the call ends
      have heff : ∀ w : World, (∀ id, SameId id r₀.world.maps w.maps) →
          (∀ cg id, w.maps.cgToPolicy.lookup cg = some id → r₀.bound cg = some id) →
          RemoveEffect r₀ podID cid (r₀.dropContainer podID cid state container.cgroupID w) :=
        fun w hids hb => ⟨rfl, rfl, rfl, hids,
          fun p pm cid' c hc => (Resolver.cached_dropContainer hstate hcid).mp hc,
          fun p pm cid' c hc hne => (Resolver.cached_dropContainer hstate hcid).mpr ⟨hc, hne⟩, hb⟩
      have hthe : ∀ pm c, r₀.Cached podID pm cid c → c = container := by
        rintro pm c ⟨entry, hentry, _, hc⟩
        obtain rfl : state = entry := Option.some.inj (hstate.symm.trans hentry)
        exact Option.some.inj (hc.symm.trans hcid)
      refine Ends.bind
        (ends_ok.mpr (Ends.zoom ((call_ends (handled_ends removeCgroups_ends)).mono ?_ ?_)))
      · rintro _ w ⟨_, hw⟩
        have hlook : ∀ cg, w.maps.cgToPolicy.lookup cg
            = if cg = container.cgroupID then none else r₀.bound cg := by
          intro cg
          rw [hw]
          exact BpfMaps.lookup_unbindCgroup _ _
        refine ⟨heff w (fun id => ?_) fun cg id hid => ?_, fun pm c hc => ?_, fun cg hcg => ?_⟩
        · rw [hw]
          exact ⟨fun _ => rfl, rfl⟩
        · rw [hlook] at hid
          split at hid
          · exact absurd hid (by simp)
          · exact hid
        · refine (hlook _).trans (if_pos ?_)
          rw [hthe pm c hc]
        · refine (hlook cg).trans (if_neg fun heq => ?_)
          exact hcg state.podMeta container ⟨state, hstate, rfl, hcid⟩ heq.symm
      · rintro _ w ⟨hf, b, rfl⟩
        have hw : w.maps = r₀.world.maps := hf.moves.unchanged
        refine ⟨heff w (fun id => ?_) fun cg id hid => ?_, rfl, hf.fault trivial⟩
        · rw [hw]
          exact SameId.refl
        · rw [hw] at hid
          exact hid

end RuntimeEnforcer
