import RuntimeEnforcer.Proof.Owned

/-!
# Tracked containers

`AddPodContainerFromNri` puts a container in its pod's entry before it asks for the container's
cgroup to be tracked. The entry of a pod that is not cached yet is dropped when the call fails, so
a retry starts over; the entry of a cached pod is the cache's own, so a retry finds the container
there and skips it. If the tracker never fails a cached pod, every cached container has been tracked
since it was added.
-/

set_option autoImplicit false

namespace RuntimeEnforcer

open Lib

/-- A call for `cg` has succeeded since the container was last added. -/
def trackedSince (podID : PodID) (cid : ContainerID) (cg : CgroupID) : List CacheEvent → Bool
  | [] => false
  | .tracked cg' :: es => cg' = cg || trackedSince podID cid cg es
  | .added podID' cid' :: es =>
    if podID' = podID ∧ cid' = cid then false else trackedSince podID cid cg es

/-- Every cached container has been tracked since it was added. -/
def Tracked (r : Resolver) : Prop :=
  ∀ p pm cid c, r.Cached p pm cid c → trackedSince p cid c.cgroupID r.events = true

/-- The moments at which the loop over the report's containers calls the tracker. -/
def trackerCalls (env : Env) (pod : PodInput) (cached : Bool) :
    List (Entry ContainerID ContainerInput) → PodEntry → Resolver → List Nat
  | [], _, _ => []
  | e :: es, st, r =>
    (if st.containers.lookup e.1 = none then [r.world.clock] else []) ++
      match addContainer env pod cached st e r with
      | .ok st' r' => trackerCalls env pod cached es st' r'
      | .error _ _ => []

/-- The calls of `AddPodContainerFromNri`. -/
def PodInput.trackerCalls (env : Env) (pod : PodInput) (r : Resolver) : List Nat :=
  RuntimeEnforcer.trackerCalls env pod (r.podCache.lookup pod.podMeta.id).isSome
    (env.inputs.range r.world.clock pod.containers)
    ((r.podCache.lookup pod.podMeta.id).getD (convertPodData pod)) r

/-- The tracker does not fail while a cached pod is extended. -/
def Op.TracksKnown (env : Env) (r : Resolver) : Op → Prop
  | .addPod pod => (r.podCache.lookup pod.podMeta.id).isSome →
    ∀ t ∈ pod.trackerCalls env r, env.fault t = none
  | _ => True

/-- The loop over the containers of a report, from `r₀`: other pods are left alone. -/
structure Tracking (r₀ : Resolver) (pod : PodInput) (st : PodEntry) (r : Resolver) : Prop
    extends Extending r₀ pod st r where
  others : ∀ p cid cg, p ≠ pod.podMeta.id → trackedSince p cid cg r₀.events = true →
    trackedSince p cid cg r.events = true

/-- Every container of the entry is tracked. -/
def PodEntry.Tracked (podID : PodID) (st : PodEntry) (events : List CacheEvent) : Prop :=
  ∀ cid c, st.containers.lookup cid = some c → trackedSince podID cid c.cgroupID events = true

section

variable {env : Env} {pod : PodInput} {r₀ r r' : Resolver} {st : PodEntry}
  {cid : ContainerID} {ci : ContainerInput}

theorem Tracking.store (h : Tracking r₀ pod st r) {w : World} {events : List CacheEvent}
    (hev : events = .added pod.podMeta.id cid :: r.events ∨
      events = .tracked ci.cgroupID :: .added pod.podMeta.id cid :: r.events) :
    Tracking r₀ pod (st.put cid ci)
      { storeContainer pod (r₀.podCache.lookup pod.podMeta.id).isSome (st.put cid ci) cid
          ci.cgroupID r with world := w, events } where
  toExtending := h.toExtending.store
  others := by
    intro p cid' cg hp hold
    have hr := h.others p cid' cg hp hold
    have hne : ¬ (pod.podMeta.id = p ∧ cid = cid') := fun heq => hp heq.1.symm
    rcases hev with rfl | rfl
    · simp only [trackedSince, if_neg hne, hr]
    · simp only [trackedSince, if_neg hne, hr, Bool.or_true]

theorem PodEntry.Tracked.insert {podID : PodID} {events : List CacheEvent}
    (h : st.Tracked podID events) :
    (st.put cid ci).Tracked podID (.tracked ci.cgroupID :: .added podID cid :: events) := by
  intro cid' c hc
  rw [PodEntry.lookup_put] at hc
  split at hc
  · obtain rfl := Option.some.inj hc
    simp [trackedSince]
  · next hne =>
    simp [trackedSince, Ne.symm hne, h cid' c hc]

theorem addContainer_tracking (h : Tracking r₀ pod st r)
    (htr : st.Tracked pod.podMeta.id r.events) :
    Ends (addContainer env pod (r₀.podCache.lookup pod.podMeta.id).isSome st ⟨cid, ci⟩ r)
      (fun st' r' => Tracking r₀ pod st' r' ∧ st'.Tracked pod.podMeta.id r'.events)
      (fun _ r' => ∃ st', Tracking r₀ pod st' r' ∧
        ((st.containers.lookup cid = none → env.fault r.world.clock = none) →
          st'.Tracked pod.podMeta.id r'.events)) := by
  refine addContainer_cases.mono ?_ ?_
  · rintro st' r' (⟨-, rfl, rfl⟩ | ⟨-, -, rfl, w, -, rfl⟩)
    · exact ⟨h, htr⟩
    · exact ⟨h.store (.inr rfl), htr.insert⟩
  · rintro e r' (⟨info, -, -, rfl⟩ | ⟨hst, hf, -, w, -, rfl⟩)
    · exact ⟨st, h, fun _ => htr⟩
    · exact ⟨_, h.store (.inl rfl), fun hno => absurd (hno hst) hf⟩

theorem foldlM_addContainer_tracking (env : Env) (es : List (Entry ContainerID ContainerInput))
    (h : Tracking r₀ pod st r) (htr : st.Tracked pod.podMeta.id r.events) :
    Ends (es.foldlM (addContainer env pod (r₀.podCache.lookup pod.podMeta.id).isSome) st r)
      (fun st' r' => Tracking r₀ pod st' r' ∧ st'.Tracked pod.podMeta.id r'.events)
      (fun _ r' => ∃ st', Tracking r₀ pod st' r' ∧
        ((∀ t ∈ trackerCalls env pod (r₀.podCache.lookup pod.podMeta.id).isSome es st r,
          env.fault t = none) → st'.Tracked pod.podMeta.id r'.events)) := by
  induction es generalizing st r with
  | nil => exact ends_ok.mpr ⟨h, htr⟩
  | cons e es ih =>
    rw [List.foldlM_cons]
    have hone : Ends (addContainer env pod (r₀.podCache.lookup pod.podMeta.id).isSome st e r) _ _ :=
      addContainer_tracking h htr
    refine Ends.bind ((hone.and (Ends.self _)).mono ?_ ?_)
    · rintro st' r' ⟨⟨h', htr'⟩, hres⟩
      refine (ih h' htr').mono (fun _ _ h => h) ?_
      rintro _ r'' ⟨st'', h'', htr''⟩
      refine ⟨st'', h'', fun hcalls => htr'' fun t ht => hcalls t ?_⟩
      simp only [trackerCalls, hres]
      exact List.mem_append_right _ ht
    · rintro _ r' ⟨⟨st', h', htr'⟩, _⟩
      refine ⟨st', h', fun hcalls => htr' fun hnone => hcalls _ ?_⟩
      simp only [trackerCalls, if_pos hnone]
      exact List.mem_append_left _ (by simp)

/-! ## The operations -/

theorem Tracked.of_cached (h : Tracked r) (hev : r'.events = r.events)
    (hc : ∀ p pm cid c, r'.Cached p pm cid c → r.Cached p pm cid c) : Tracked r' := by
  intro p pm cid c hcached
  rw [hev]
  exact h p pm cid c (hc p pm cid c hcached)

theorem Tracked.start (h : Tracked r₀) :
    ((r₀.podCache.lookup pod.podMeta.id).getD (convertPodData pod)).Tracked pod.podMeta.id
      r₀.events := by
  cases hk : r₀.podCache.lookup pod.podMeta.id with
  | none => exact fun cid c hc => absurd hc (by simp [convertPodData])
  | some st => exact fun cid c hc => h _ st.podMeta cid c ⟨st, hk, rfl, hc⟩

theorem Tracking.tracked (h : Tracked r₀) (ht : Tracking r₀ pod st r)
    (htr : (r₀.podCache.lookup pod.podMeta.id).isSome → st.Tracked pod.podMeta.id r.events) :
    Tracked r := by
  rintro p pm cid c ⟨entry, hentry, hpm, hc⟩
  by_cases hp : p = pod.podMeta.id
  · subst hp
    rw [ht.entry] at hentry
    obtain ⟨_, hk, rfl⟩ := Option.map_eq_some_iff.mp hentry
    exact htr (by simp [hk]) cid c hc
  · rw [ht.otherPods p hp] at hentry
    exact ht.others p cid _ hp (h p pm cid c ⟨entry, hentry, hpm, hc⟩)

theorem Tracking.tracked_putPod (h : Tracked r₀) (ht : Tracking r₀ pod st r)
    (htr : st.Tracked pod.podMeta.id r.events) (w : World) :
    Tracked (r.putPod pod.podMeta.id st w) := by
  intro p pm cid c hcached
  rw [Resolver.cached_putPod] at hcached
  split at hcached
  · next hp =>
    subst hp
    exact htr cid c hcached.2
  · next hp =>
    obtain ⟨entry, hentry, hpm, hc⟩ := hcached
    rw [ht.otherPods p hp] at hentry
    exact ht.others p cid _ hp (h p pm cid c ⟨entry, hentry, hpm, hc⟩)

theorem addPodContainerFromNri_tracked (h : Tracked r) :
    Ends (addPodContainerFromNri env pod r)
      (fun _ r' => Tracked r' ∧ ∀ cid ci, pod.containers.lookup cid = some ci →
        ∃ pm, r'.Cached pod.podMeta.id pm cid ci.toContainerMeta)
      (fun _ r' => (Op.addPod pod).TracksKnown env r → Tracked r') := by
  have hk := starts_getD r pod
  have hloop := foldlM_addContainer_tracking env (env.inputs.range r.world.clock pod.containers)
    ⟨Extending.refl hk, fun _ _ _ _ hold => hold⟩ h.start
  unfold addPodContainerFromNri
  refine Ends.bind (ends_ok.mpr (Ends.bind ((hloop.and (addContainers_ends hk)).mono ?_ ?_)))
  · rintro st r₁ ⟨⟨ht, htr⟩, hadd⟩
    refine Ends.bind (ends_ok.mpr (Ends.bind (ends_ok.mpr (Ends.zoom ?_))))
    have hput : ∀ w, Tracked (r₁.putPod pod.podMeta.id st w) := ht.tracked_putPod h htr
    refine (Ends.self _).mono (fun _ w _ => ⟨hput w, fun cid ci hci => ⟨st.podMeta, ?_⟩⟩)
      fun _ w _ _ => hput w
    have hin : cid ∈ {cid | (pod.containers.lookup cid).isSome} := by simp [hci]
    have hc : (r₁.putPod pod.podMeta.id st w).Cached pod.podMeta.id st.podMeta cid
        ci.toContainerMeta := by
      rw [Resolver.cached_putPod, if_pos rfl]
      exact ⟨rfl, hadd.done cid hin ci hci⟩
    exact hc
  · rintro _ r' ⟨⟨st', ht, htr⟩, _⟩ hcalls
    exact ht.tracked h fun hsome => htr (hcalls hsome)

theorem Tracked.step (h : Tracked r) {op : Op} (hop : op.TracksKnown env r) :
    Tracked (op.step env r) := by
  refine Ends.after ?_
  cases op with
  | reconcile wp =>
    -- whichever way it ends, only the policy's entry and the maps are written
    show Ends (reconcileWP env wp r) _ _
    cases hres : reconcileContainers env wp r.podCache (r.scope wp.namespacedName) with
    | ok _ s =>
      simp only [reconcileWP, hres]
      exact ends_ok.mpr (h.of_cached rfl fun _ _ _ _ hc => hc)
    | error e s =>
      simp only [reconcileWP, hres]
      exact ends_error.mpr (h.of_cached rfl fun _ _ _ _ hc => hc)
  | delete o =>
    show Ends (handleWPDelete env o r) _ _
    unfold handleWPDelete
    refine Ends.bind (ends_ok.mpr ?_)
    cases r.wpState.lookup o.namespacedName with
    | none => exact ends_ok.mpr h
    | some info =>
      refine Ends.bind (ends_ok.mpr (Ends.zoom ((Ends.self _).mono ?_ ?_)))
      · exact fun _ _ _ => h.of_cached rfl fun _ _ _ _ hc => hc
      · exact fun _ _ _ => h.of_cached rfl fun _ _ _ _ hc => hc
  | addPod pod =>
    exact (addPodContainerFromNri_tracked h).mono (fun _ _ h' => h'.1) fun _ _ h' => h' hop
  | removePod podID cid =>
    have hkeep : ∀ {r' : Resolver}, RemoveEffect r podID cid r' → Tracked r' := fun he =>
      h.of_cached he.events fun p pm cid' c hc => (he.cachedFrom p pm cid' c hc).1
    exact removePodContainerFromNri_ends.mono (fun _ _ he => hkeep he.1) fun _ _ he => hkeep he.1

end

/-- **A report that is accepted is tracked**, in every run in which the tracker does not fail a pod
that is cached. -/
theorem tracked_of_accepted {env : Env} {ops : List Op} {pod : PodInput} {r' : Resolver}
    (hops : Along (Op.step env) (Op.TracksKnown env) ops {})
    (hok : addPodContainerFromNri env pod (run (Op.step env) ops {}) = .ok () r') :
    ∀ cid ci, pod.containers.lookup cid = some ci →
      trackedSince pod.podMeta.id cid ci.cgroupID r'.events = true := by
  have hinit : Tracked {} := by
    rintro p pm cid c ⟨entry, hentry, _⟩
    exact absurd hentry (by simp)
  have h : Tracked (run (Op.step env) ops {}) :=
    run_inv (fun _ _ h hop => h.step hop) hinit hops
  obtain ⟨htr, hall⟩ := (addPodContainerFromNri_tracked h).of_ok hok
  intro cid ci hci
  obtain ⟨pm, hc⟩ := hall cid ci hci
  exact htr _ pm cid _ hc

namespace Sample

def plain (cid : ContainerID) (cg : CgroupID) : PodInput where
  podMeta := ⟨"a", ns, "a", ∅⟩
  containers := (∅ : GoMap _ _).insert cid { name := cid, cgroupID := cg }

/-- The tracker fails for the pod's first container, which is reported again. -/
theorem tracked_of_accepted_first : ∃ r',
    addPodContainerFromNri (.failsAt 0) (plain "c1" 7)
      (run (Op.step (.failsAt 0)) [.addPod (plain "c1" 7)] {}) = .ok () r' ∧
      trackedSince "a" "c1" 7 r'.events = true := by
  have hops : Along (Op.step (.failsAt 0)) (Op.TracksKnown (.failsAt 0))
      [.addPod (plain "c1" 7)] {} :=
    ⟨fun h => absurd h (by decide), trivial⟩
  obtain ⟨_, hok⟩ := (isOk_iff (r := addPodContainerFromNri (.failsAt 0) (plain "c1" 7)
    (run (Op.step (.failsAt 0)) [.addPod (plain "c1" 7)] {}))).mp (by decide +kernel)
  exact ⟨_, hok, tracked_of_accepted hops hok "c1" ⟨⟨"c1", 7⟩, ""⟩ rfl⟩

/-- The tracker fails for a second container: the retry returns, and the cgroup is not tracked. -/
theorem untracked_second_container : ∃ r',
    addPodContainerFromNri (.failsAt 1) (plain "c2" 8)
      (run (Op.step (.failsAt 1)) [.addPod (plain "c1" 7), .addPod (plain "c2" 8)] {})
        = .ok () r' ∧
      trackedSince "a" "c2" 8 r'.events = false ∧ r'.world.maps.cgtracker 8 = none := by
  obtain ⟨_, hok⟩ := (isOk_iff (r := addPodContainerFromNri (.failsAt 1) (plain "c2" 8)
    (run (Op.step (.failsAt 1)) [.addPod (plain "c1" 7), .addPod (plain "c2" 8)] {}))).mp
      (by decide +kernel)
  exact ⟨_, hok, by decide +kernel, by decide +kernel⟩

end Sample

end RuntimeEnforcer
