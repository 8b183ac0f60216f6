import RuntimeEnforcer.Resolver.NriApi

/-!
# What a reconcile does to the pods

The loop of `ReconcileWP` over the cached pods. For every container of a matching pod it either
unbinds the container and clears its policy id (the name is no longer in the spec), binds it (the
name is), or leaves it alone. `reconcilePods_ends` says what the loop has done when it returns and
what it may have done when it fails, and names every state of the maps in between.

The state after some visits is described by the containers visited so far and not by the order of
the visits (`Swept`): a container's cgroup determines its name, so no visit undoes another.
-/

set_option autoImplicit false

namespace RuntimeEnforcer

open Lib

/-! ## Writing and clearing one policy id -/

/-- Nothing about `id` differs. -/
structure SameId (id : PolicyID) (m₀ m : BpfMaps) : Prop where
  strings : ∀ i, m.polStrMaps i id = m₀.polStrMaps i id
  settings : m.policySettings id = m₀.policySettings id

/-- `id` is being written: the string maps first, one class after another, then the settings. -/
structure Partway (id : PolicyID) (T : (i : MapIndex) → Option (InnerMap (stringMapsSizes i)))
    (S : Option PolicySettings) (m₀ m : BpfMaps) : Prop where
  classes : ∀ i, m.polStrMaps i id = m₀.polStrMaps i id ∨ m.polStrMaps i id = T i
  settings : m.policySettings id = m₀.policySettings id ∨
    m.policySettings id = S ∧ ∀ i, m.polStrMaps i id = T i

/-- A state of writing `id`, and nothing else. -/
structure Rewrites (id : PolicyID) (T : (i : MapIndex) → Option (InnerMap (stringMapsSizes i)))
    (S : Option PolicySettings) (m₀ m : BpfMaps) : Prop extends Partway id T S m₀ m where
  cgtracker : m.cgtracker = m₀.cgtracker
  cgToPolicy : m.cgToPolicy = m₀.cgToPolicy
  others : ∀ d, d ≠ id → SameId d m₀ m

/-- The id has been written. `halfway` is the moment between the two kinds of map. -/
structure Rewrote (env : ManagerEnv) (id : PolicyID)
    (T : (i : MapIndex) → Option (InnerMap (stringMapsSizes i))) (S : Option PolicySettings)
    (w w' : World) : Prop where
  runs : Runs env (Rewrites id T S w.maps) w w'
  stored : ∀ i, w'.maps.polStrMaps i id = T i
  settings : w'.maps.policySettings id = S
  halfway : ∃ m, Saw w w' m ∧ Between id T w.maps m ∧ ∀ i, m.polStrMaps i id = T i

section

variable {env : ManagerEnv} {id : PolicyID}
  {T : (i : MapIndex) → Option (InnerMap (stringMapsSizes i))} {S : Option PolicySettings}
  {C V : Prop} {w w' : World} {m₀ m : BpfMaps}

theorem SameId.refl : SameId id m₀ m₀ := ⟨fun _ => rfl, rfl⟩

theorem SameId.trans {m₁ : BpfMaps} (h₁ : SameId id m₀ m₁) (h₂ : SameId id m₁ m) :
    SameId id m₀ m :=
  ⟨fun i => (h₂.strings i).trans (h₁.strings i), h₂.settings.trans h₁.settings⟩

theorem Rewrites.refl : Rewrites id T S m₀ m₀ :=
  ⟨⟨fun _ => .inl rfl, .inl rfl⟩, rfl, rfl, fun _ _ => SameId.refl⟩

theorem Between.rewrites (h : Between id T m₀ m) : Rewrites id T S m₀ m := by
  refine ⟨⟨h.classes, .inl ?_⟩, h.cgtracker, h.cgToPolicy, fun d hd => ⟨h.others d hd, ?_⟩⟩
  · rw [h.policySettings]
  · rw [h.policySettings]

theorem Between.rewrites_setSettings (h : Between id T m₀ m) (hT : ∀ i, m.polStrMaps i id = T i) :
    Rewrites id T S m₀ (m.setSettings id S) := by
  refine ⟨⟨h.classes, .inr ⟨?_, hT⟩⟩, h.cgtracker, h.cgToPolicy, fun d hd => ⟨h.others d hd, ?_⟩⟩
  · rw [BpfMaps.policySettings_setSettings, if_pos rfl]
  · rw [BpfMaps.policySettings_setSettings, if_neg hd, h.policySettings]

theorem Rewrote.rewrites (h : Rewrote env id T S w w') : Rewrites id T S w.maps w'.maps :=
  h.runs.moves.maps Rewrites.refl

theorem values_then_settings_ends {x : BpfM Unit} {err : String → BpfErr}
    (hx : Ends (x w) (fun _ w' => Writes env id T w w' ∧ V)
      (fun _ w' => Fails env C (Between id T w.maps) w w')) :
    Ends ((do x; handleErrOnShutdown env (syscall env err fun m => m.setSettings id S)) w)
      (fun _ w' => Rewrote env id T S w w' ∧ V)
      (fun _ w' => Fails env C (Rewrites id T S w.maps) w w' ∧
        w'.maps.policySettings = w.maps.policySettings) := by
  refine Ends.bind (hx.mono ?_ ?_)
  · rintro _ w₁ ⟨hw₁, hV⟩
    have hb := hw₁.between
    have hr₁ : Runs env (Rewrites id T S w.maps) w w₁ := hw₁.runs.mono fun _ h => h.rewrites
    refine handled_ends (syscall_ends.mono ?_ ?_)
    · rintro _ w₂ ⟨hr₂, hw₂⟩
      have hlast := hb.rewrites_setSettings (S := S) hw₁.stored
      have hsaw : Saw w w₂ w₁.maps :=
        ⟨w₁, rfl, hw₁.runs.moves.mono fun _ _ => trivial, hr₂.moves.mono fun _ _ => trivial⟩
      refine ⟨⟨hr₁.trans (hr₂.mono ?_), ?_, ?_, _, hsaw, hb, hw₁.stored⟩, hV⟩
      · rintro m rfl
        exact hlast
      · intro i
        rw [hw₂]
        exact hw₁.stored i
      · rw [hw₂, BpfMaps.policySettings_setSettings, if_pos rfl]
    · rintro _ w₂ ⟨hf, _⟩
      refine ⟨hr₁.trans_fails (hf.mono (fun _ => trivial) fun _ h => h.elim), ?_⟩
      rw [hf.moves.unchanged, hb.policySettings]
  · intro _ w₁ hf
    exact ⟨hf.mono (fun hC => hC) fun _ h => h.rewrites,
      (hf.moves.maps Between.refl).policySettings⟩

theorem upsertPolicyIDInBPF_ends {values : List Bytes} {mode : Mode} {allow : Bool}
    {op : PolicyValuesOperation} (hop : op = .replaceValuesInPolicy ∨
      op = .addValuesToPolicy ∧ ∀ i, w.maps.polStrMaps i id = none) :
    Ends (upsertPolicyIDInBPF env id values mode allow op w)
      (fun _ w' => Rewrote env id (newClass env values) (some (settingsOf mode allow)) w w' ∧
        ∀ v ∈ values, ValidValue env.currKernelVersion v)
      (fun _ w' => Fails env (Acceptable env values)
          (Rewrites id (newClass env values) (some (settingsOf mode allow)) w.maps) w w' ∧
        w'.maps.policySettings = w.maps.policySettings) := by
  refine values_then_settings_ends ?_
  rcases hop with rfl | ⟨rfl, hfresh⟩
  · exact handled_ends replaceBPFMaps_ends
  · exact handled_ends (generateBPFMaps_ends hfresh)

theorem clearPolicyIDFromBPF_ends :
    Ends (clearPolicyIDFromBPF env id w)
      (fun _ w' => Rewrote env id (fun _ => none) none w w')
      (fun _ w' => Fails env True (Rewrites id (fun _ => none) none w.maps) w w' ∧
        w'.maps.policySettings = w.maps.policySettings) := by
  refine (values_then_settings_ends (V := True) ?_).mono (fun _ _ h => h.1) (fun _ _ h => h)
  exact handled_ends (removeBPFMaps_ends.mono (fun _ _ h => ⟨h, trivial⟩) (fun _ _ h => h))

theorem call_ends {err : BpfErr → ResolverErr} {x : BpfM Unit} {Q E : World → Prop}
    (h : Ends (x w) (fun _ => Q) (fun _ => E)) :
    Ends (call err x w) (fun _ => Q) (fun e w' => E w' ∧ ∃ b, e = err b) :=
  Ends.zoom (h.mono (fun _ _ h => h) (fun b _ h => ⟨h, b, rfl⟩))

end

/-! ## Visiting one container -/

/-- A state of taking a policy away from the container with cgroup `cg`: it is unbound before the
policy id is touched. -/
structure Dropping (cg : CgroupID) (id : PolicyID) (m₀ m : BpfMaps) : Prop where
  cgtracker : m.cgtracker = m₀.cgtracker
  lookup : ∀ c, m.cgToPolicy.lookup c = m₀.cgToPolicy.lookup c ∨
    c = cg ∧ m.cgToPolicy.lookup c = none
  others : ∀ d, d ≠ id → SameId d m₀ m
  classes : ∀ i, m.polStrMaps i id = m₀.polStrMaps i id ∨ m.polStrMaps i id = none
  settings : m.policySettings id = m₀.policySettings id ∨ m.policySettings id = none
  first : m.cgToPolicy.lookup cg = none ∨ SameId id m₀ m

/-- The policy has been taken away. -/
structure Dropped (cg : CgroupID) (id : PolicyID) (m₀ m : BpfMaps) : Prop extends
    Dropping cg id m₀ m where
  unbound : m.cgToPolicy.lookup cg = none
  stringsGone : ∀ i, m.polStrMaps i id = none
  settingsGone : m.policySettings id = none

section

variable {cg : CgroupID} {id : PolicyID} {m₀ m : BpfMaps}

theorem Dropping.refl : Dropping cg id m₀ m₀ :=
  ⟨rfl, fun _ => .inl rfl, fun _ _ => SameId.refl, fun _ => .inl rfl, .inl rfl, .inr SameId.refl⟩

theorem Dropping.unbind : Dropping cg id m₀ (m₀.unbindCgroup cg) := by
  refine ⟨rfl, fun c => ?_, fun _ _ => ⟨fun _ => rfl, rfl⟩, fun _ => .inl rfl, .inl rfl,
    .inl (by simp)⟩
  by_cases hc : c = cg
  · exact .inr ⟨hc, by simp [hc]⟩
  · exact .inl (by simp [hc])

theorem Rewrites.dropping (h : Rewrites id (fun _ => none) none (m₀.unbindCgroup cg) m) :
    Dropping cg id m₀ m := by
  refine ⟨h.cgtracker, fun c => ?_,
    fun d hd => ⟨(h.others d hd).strings, (h.others d hd).settings⟩, h.classes,
    h.settings.imp_right (·.1), .inl ?_⟩
  · rw [h.cgToPolicy]
    exact (Dropping.unbind : Dropping cg id m₀ (m₀.unbindCgroup cg)).lookup c
  · rw [h.cgToPolicy]
    simp

end

theorem removeFromContainer_ends {env : Env} {key : NamespacedPolicyName} {pod : PodEntry}
    {removed : PolicyByContainer} {c : ContainerMeta} {id : PolicyID} {s : PolicyScope}
    (hid : removed.lookup c.name = some id) :
    Ends (removeFromContainer env key pod removed c s)
      (fun _ s' => s'.nextPolicyID = s.nextPolicyID ∧
        s'.polByContainer = s.polByContainer.erase c.name ∧
        Runs env.toManagerEnv (Dropping c.cgroupID id s.world.maps) s.world s'.world ∧
        Dropped c.cgroupID id s.world.maps s'.world.maps ∧
        ∃ m, Saw s.world s'.world m ∧ Dropping c.cgroupID id s.world.maps m ∧
          (∀ i, m.polStrMaps i id = none) ∧
          m.policySettings id = s.world.maps.policySettings id)
      (fun e s' => (e.isBpf = true ∧ ∀ wp n b, e ≠ .populate wp n b) ∧
        s'.nextPolicyID = s.nextPolicyID ∧ s'.polByContainer = s.polByContainer ∧
        Fails env.toManagerEnv True (Dropping c.cgroupID id s.world.maps) s.world s'.world ∧
        s'.world.maps.policySettings = s.world.maps.policySettings) := by
  unfold removeFromContainer
  rw [hid]
  refine Ends.bind (Ends.zoom ((call_ends (handled_ends removeCgroups_ends)).mono ?_ ?_))
  · rintro _ w₁ ⟨hr₁, hw₁⟩
    have hr₁' : Runs env.toManagerEnv (Dropping c.cgroupID id s.world.maps) s.world w₁ :=
      hr₁.mono (by rintro m rfl; exact Dropping.unbind)
    refine Ends.bind (Ends.zoom ((call_ends clearPolicyIDFromBPF_ends).mono ?_ ?_))
    · intro _ w₂ h₂
      have hdrop : ∀ m, Rewrites id (fun _ => none) none w₁.maps m →
          Dropping c.cgroupID id s.world.maps m := fun m hm => (hw₁ ▸ hm).dropping
      obtain ⟨m, hsaw, hbetween, hnone⟩ := h₂.halfway
      refine ends_ok.mpr ⟨rfl, rfl, hr₁'.trans (h₂.runs.mono hdrop), ⟨hdrop _ h₂.rewrites, ?_,
        h₂.stored, h₂.settings⟩, m, hsaw.after hr₁'.moves, hdrop m hbetween.rewrites, hnone, ?_⟩
      · show w₂.maps.cgToPolicy.lookup c.cgroupID = none
        rw [h₂.rewrites.cgToPolicy]
        show w₁.maps.cgToPolicy.lookup c.cgroupID = none
        rw [hw₁]
        simp
      · rw [hbetween.policySettings]
        show w₁.maps.policySettings id = _
        rw [hw₁]
        rfl
    · rintro e w₂ ⟨⟨hf, hset⟩, b, rfl⟩
      refine ⟨⟨rfl, by simp⟩, rfl, rfl, hr₁'.trans_fails (hf.mono (fun _ => trivial) ?_), ?_⟩
      · intro m hm
        exact Rewrites.dropping (hw₁ ▸ hm)
      · show w₂.maps.policySettings = _
        rw [hset]
        show w₁.maps.policySettings = _
        rw [hw₁]
        rfl
  · rintro e w₁ ⟨hf, b, rfl⟩
    refine ⟨⟨rfl, by simp⟩, rfl, rfl, hf.mono (fun _ => trivial) fun _ h => h.elim, ?_⟩
    show w₁.maps.policySettings = _
    rw [hf.moves.unchanged]

theorem applyToContainer_ends {env : Env} {state : PodEntry} {applied : PolicyByContainer}
    {c : ContainerMeta} {id : PolicyID} {w : World} (hid : applied.lookup c.name = some id) :
    Ends (applyToContainer env state applied c w)
      (fun _ w' => (w.maps.cgToPolicy.lookup c.cgroupID = none ∨
          w.maps.cgToPolicy.lookup c.cgroupID = some id) ∧
        Runs env.toManagerEnv (Binds c.cgroupID id w.maps) w w' ∧
        Binds c.cgroupID id w.maps w'.maps)
      (fun e w' => Fails env.toManagerEnv (0 < id ∧
          (w.maps.cgToPolicy.lookup c.cgroupID = none ∨
            w.maps.cgToPolicy.lookup c.cgroupID = some id)) (fun _ => False) w w' ∧
        ∃ pod n policy b, e = .addCgroups pod n policy b) := by
  unfold applyToContainer
  rw [hid]
  refine (call_ends (handled_ends addPolicyToCgroups_ends)).mono (fun _ _ h => h) ?_
  rintro e w' ⟨hf, b, rfl⟩
  exact ⟨hf, _, _, _, b, rfl⟩

/-! ## After some visits -/

def PodEntry.metas (pod : PodEntry) : Set ContainerMeta :=
  {c | ∃ cid, pod.containers.lookup cid = some c}

/-- The cached containers of the pods a policy matches. -/
def matched (podCache : GoMap PodID PodEntry) (key : NamespacedPolicyName) : Set ContainerMeta :=
  {c | ∃ podID pod, podCache.lookup podID = some pod ∧ pod.podMeta.policyKey = key ∧ c ∈ pod.metas}

/-- What the loop relies on: a name is not both dropped and applied, an id is that of one name, and
a cgroup has one name. -/
structure Plan (M : Set ContainerMeta) (applied removed : PolicyByContainer) : Prop where
  disjoint : ∀ n id, removed.lookup n = some id → applied.lookup n = none
  inj : ∀ n n' id, removed.lookup n = some id → removed.lookup n' = some id → n = n'
  oneName : ∀ c ∈ M, ∀ c' ∈ M, c.cgroupID = c'.cgroupID → c.name = c'.name

/-- The state after the containers `D` have been visited by `removePolicyFromPod` and the
containers `B` by `applyPolicyToPod`. -/
structure Swept (applied removed : PolicyByContainer) (s₁ : PolicyScope)
    (D B : Set ContainerMeta) (s : PolicyScope) : Prop where
  next : s.nextPolicyID = s₁.nextPolicyID
  cgtracker : s.world.maps.cgtracker = s₁.world.maps.cgtracker
  gone : ∀ c ∈ D, ∀ id, removed.lookup c.name = some id → s.polByContainer.lookup c.name = none ∧
    s.world.maps.cgToPolicy.lookup c.cgroupID = none ∧
    (∀ i, s.world.maps.polStrMaps i id = none) ∧ s.world.maps.policySettings id = none
  bound : ∀ c ∈ B, ∀ id, applied.lookup c.name = some id →
    s.world.maps.cgToPolicy.lookup c.cgroupID = some id
  polKept : ∀ n, (∀ c ∈ D, c.name = n → removed.lookup n = none) →
    s.polByContainer.lookup n = s₁.polByContainer.lookup n
  bindingKept : ∀ cg, (∀ c ∈ D, c.cgroupID = cg → removed.lookup c.name = none) →
    (∀ c ∈ B, c.cgroupID = cg → applied.lookup c.name = none) →
    s.world.maps.cgToPolicy.lookup cg = s₁.world.maps.cgToPolicy.lookup cg
  idKept : ∀ id, (∀ c ∈ D, removed.lookup c.name ≠ some id) →
    SameId id s₁.world.maps s.world.maps

section

variable {M : Set ContainerMeta} {applied removed : PolicyByContainer} {s₁ s s' : PolicyScope}
  {D B : Set ContainerMeta} {c : ContainerMeta} {id : PolicyID}

theorem Swept.refl : Swept applied removed s₁ ∅ ∅ s₁ where
  next := rfl
  cgtracker := rfl
  gone := fun _ h => absurd h (by simp)
  bound := fun _ h => absurd h (by simp)
  polKept := fun _ _ => rfl
  bindingKept := fun _ _ _ => rfl
  idKept := fun _ _ => SameId.refl

theorem Swept.skip_drop (h : Swept applied removed s₁ D B s) (hc : removed.lookup c.name = none) :
    Swept applied removed s₁ (D ∪ {c}) B s where
  next := h.next
  cgtracker := h.cgtracker
  gone := by
    rintro d (hd | rfl) id hid
    · exact h.gone d hd id hid
    · exact absurd hid (by simp [hc])
  bound := h.bound
  polKept := fun n hn => h.polKept n fun d hd => hn d (.inl hd)
  bindingKept := fun cg h₁ h₂ => h.bindingKept cg (fun d hd => h₁ d (.inl hd)) h₂
  idKept := fun id hid => h.idKept id fun d hd => hid d (.inl hd)

theorem Swept.skip_bind (h : Swept applied removed s₁ D B s) (hc : applied.lookup c.name = none) :
    Swept applied removed s₁ D (B ∪ {c}) s where
  next := h.next
  cgtracker := h.cgtracker
  gone := h.gone
  bound := by
    rintro b (hb | rfl) id hid
    · exact h.bound b hb id hid
    · exact absurd hid (by simp [hc])
  polKept := h.polKept
  bindingKept := fun cg h₁ h₂ => h.bindingKept cg h₁ fun b hb => h₂ b (.inl hb)
  idKept := h.idKept

theorem Swept.drop (hp : Plan M applied removed) (hB : B ⊆ M) (h : Swept applied removed s₁ D B s)
    (hc : c ∈ M) (hid : removed.lookup c.name = some id)
    (hnext : s'.nextPolicyID = s.nextPolicyID)
    (hpol : s'.polByContainer = s.polByContainer.erase c.name)
    (hd : Dropped c.cgroupID id s.world.maps s'.world.maps) :
    Swept applied removed s₁ (D ∪ {c}) B s' where
  next := hnext.trans h.next
  cgtracker := hd.cgtracker.trans h.cgtracker
  gone := by
    rintro d hmem id' hid'
    have hold : d ∈ D → s.polByContainer.lookup d.name = none ∧
        s.world.maps.cgToPolicy.lookup d.cgroupID = none ∧
        (∀ i, s.world.maps.polStrMaps i id' = none) ∧ s.world.maps.policySettings id' = none :=
      fun hD => h.gone d hD id' hid'
    rcases hmem with hD | rfl
    · obtain ⟨h₁, h₂, h₃, h₄⟩ := hold hD
      refine ⟨?_, ?_, ?_⟩
      · rw [hpol, GoMap.lookup_erase_eq]
        split
        · rfl
        · exact h₁
      · rcases hd.lookup d.cgroupID with hl | hl
        · exact hl.trans h₂
        · exact hl.2
      · by_cases hids : id' = id
        · exact hids ▸ ⟨hd.stringsGone, hd.settingsGone⟩
        · have hsame := hd.others id' hids
          exact ⟨fun i => (hsame.strings i).trans (h₃ i), hsame.settings.trans h₄⟩
    · obtain rfl : id = id' := Option.some.inj (hid.symm.trans hid')
      refine ⟨?_, hd.unbound, hd.stringsGone, hd.settingsGone⟩
      rw [hpol, GoMap.lookup_erase_eq, if_pos rfl]
  bound := by
    intro b hb id' hid'
    -- a bound container has another name, so another cgroup
    have hne : b.cgroupID ≠ c.cgroupID := by
      intro heq
      have := hp.disjoint c.name id hid
      rw [← hp.oneName b (hB hb) c hc heq, hid'] at this
      exact absurd this (by simp)
    rcases hd.lookup b.cgroupID with hl | hl
    · exact hl.trans (h.bound b hb id' hid')
    · exact absurd hl.1 hne
  polKept := by
    intro n hn
    rw [hpol, GoMap.lookup_erase_eq, if_neg, h.polKept n fun d hd => hn d (.inl hd)]
    intro hname
    exact absurd (hn c (.inr rfl) hname.symm) (by rw [hname, hid]; simp)
  bindingKept := by
    intro cg h₁ h₂
    rcases hd.lookup cg with hl | hl
    · exact hl.trans (h.bindingKept cg (fun d hd => h₁ d (.inl hd)) h₂)
    · exact absurd (h₁ c (.inr rfl) hl.1.symm) (by simp [hid])
  idKept := by
    intro id' hid'
    have hne : id' ≠ id := fun heq => hid' c (.inr rfl) (heq ▸ hid)
    exact (h.idKept id' fun d hd => hid' d (.inl hd)).trans (hd.others id' hne)

theorem Swept.bind (hp : Plan M applied removed) (hD : D ⊆ M) (hB : B ⊆ M)
    (h : Swept applied removed s₁ D B s) (hc : c ∈ M) (hid : applied.lookup c.name = some id)
    (hnext : s'.nextPolicyID = s.nextPolicyID) (hpol : s'.polByContainer = s.polByContainer)
    (hb : Binds c.cgroupID id s.world.maps s'.world.maps) :
    Swept applied removed s₁ D (B ∪ {c}) s' where
  next := hnext.trans h.next
  cgtracker := hb.cgtracker.trans h.cgtracker
  gone := by
    intro d hd id' hid'
    have hne : d.cgroupID ≠ c.cgroupID := by
      intro heq
      have := hp.disjoint d.name id' hid'
      rw [hp.oneName d (hD hd) c hc heq, hid] at this
      exact absurd this (by simp)
    rw [hpol, hb.lookup, if_neg hne, hb.polStrMaps, hb.policySettings]
    exact h.gone d hd id' hid'
  bound := by
    rintro b hmem id' hid'
    rw [hb.lookup]
    by_cases heq : b.cgroupID = c.cgroupID
    · rw [if_pos heq]
      have hbM : b ∈ M := by
        rcases hmem with hB' | rfl
        · exact hB hB'
        · exact hc
      rw [hp.oneName b hbM c hc heq, hid] at hid'
      exact hid'
    · rw [if_neg heq]
      rcases hmem with hB' | rfl
      · exact h.bound b hB' id' hid'
      · exact absurd rfl heq
  polKept := by
    intro n hn
    rw [hpol]
    exact h.polKept n hn
  bindingKept := by
    intro cg h₁ h₂
    rw [hb.lookup, if_neg, h.bindingKept cg h₁ fun b hb => h₂ b (.inl hb)]
    intro heq
    exact absurd (h₂ c (.inr rfl) heq.symm) (by simp [hid])
  idKept := by
    intro id' hid'
    exact (h.idKept id' hid').trans ⟨fun i => by rw [hb.polStrMaps], by rw [hb.policySettings]⟩

end

/-! ## In between, and after a failure -/

/-- A state the loop goes through. A policy id is only touched once a container that had it is
unbound. -/
structure Sweeping (M : Set ContainerMeta) (applied removed : PolicyByContainer)
    (m₁ m : BpfMaps) : Prop where
  cgtracker : m.cgtracker = m₁.cgtracker
  lookup : ∀ cg, m.cgToPolicy.lookup cg = m₁.cgToPolicy.lookup cg ∨
    (∃ c ∈ M, c.cgroupID = cg ∧ (removed.lookup c.name).isSome ∧
      m.cgToPolicy.lookup cg = none) ∨
    ∃ c ∈ M, c.cgroupID = cg ∧ ∃ id, applied.lookup c.name = some id ∧
      m.cgToPolicy.lookup cg = some id
  classes : ∀ id i, m.polStrMaps i id = m₁.polStrMaps i id ∨ m.polStrMaps i id = none
  settings : ∀ id, m.policySettings id = m₁.policySettings id ∨ m.policySettings id = none
  first : ∀ id, (∃ c ∈ M, removed.lookup c.name = some id ∧
    m.cgToPolicy.lookup c.cgroupID = none) ∨ SameId id m₁ m

/-- What is left when the loop stops, for whichever reason; the containers `D` are done. -/
structure Partly (M : Set ContainerMeta) (applied removed : PolicyByContainer) (s₁ : PolicyScope)
    (D : Set ContainerMeta) (s : PolicyScope) : Prop where
  sub : D ⊆ M
  next : s.nextPolicyID = s₁.nextPolicyID
  gone : ∀ c ∈ D, ∀ id, removed.lookup c.name = some id → s.polByContainer.lookup c.name = none ∧
    s.world.maps.cgToPolicy.lookup c.cgroupID = none
  polKept : ∀ n, (∀ c ∈ D, c.name = n → removed.lookup n = none) →
    s.polByContainer.lookup n = s₁.polByContainer.lookup n
  settingsKept : ∀ id, (∀ c ∈ D, removed.lookup c.name ≠ some id) →
    s.world.maps.policySettings id = s₁.world.maps.policySettings id
  sweeping : Sweeping M applied removed s₁.world.maps s.world.maps

section

variable {M : Set ContainerMeta} {applied removed : PolicyByContainer} {s₁ s s' : PolicyScope}
  {D B : Set ContainerMeta} {c : ContainerMeta} {id : PolicyID} {m₁ m : BpfMaps}

theorem Sweeping.refl : Sweeping M applied removed m₁ m₁ :=
  ⟨rfl, fun _ => .inl rfl, fun _ _ => .inl rfl, fun _ => .inl rfl, fun _ => .inr SameId.refl⟩

/-- What a state after some visits has kept of a policy id, or which container it was taken from. -/
theorem Swept.cleared_or_kept (h : Swept applied removed s₁ D B s) (id : PolicyID) :
    (∃ c ∈ D, removed.lookup c.name = some id ∧
      s.world.maps.cgToPolicy.lookup c.cgroupID = none ∧
      (∀ i, s.world.maps.polStrMaps i id = none) ∧ s.world.maps.policySettings id = none) ∨
    SameId id s₁.world.maps s.world.maps := by
  by_cases hex : ∃ c ∈ D, removed.lookup c.name = some id
  · obtain ⟨c, hc, hid⟩ := hex
    exact .inl ⟨c, hc, hid, (h.gone c hc id hid).2⟩
  · exact .inr (h.idKept id fun c hc hid => hex ⟨c, hc, hid⟩)

theorem Swept.sweeping (hD : D ⊆ M) (hB : B ⊆ M) (h : Swept applied removed s₁ D B s) :
    Sweeping M applied removed s₁.world.maps s.world.maps where
  cgtracker := h.cgtracker
  lookup := by
    intro cg
    by_cases hd : ∃ c ∈ D, c.cgroupID = cg ∧ (removed.lookup c.name).isSome
    · obtain ⟨c, hc, hcg, hsome⟩ := hd
      obtain ⟨id, hid⟩ := Option.isSome_iff_exists.mp hsome
      exact .inr (.inl ⟨c, hD hc, hcg, hsome, hcg ▸ (h.gone c hc id hid).2.1⟩)
    by_cases hb : ∃ c ∈ B, c.cgroupID = cg ∧ (applied.lookup c.name).isSome
    · obtain ⟨c, hc, hcg, hsome⟩ := hb
      obtain ⟨id, hid⟩ := Option.isSome_iff_exists.mp hsome
      exact .inr (.inr ⟨c, hB hc, hcg, id, hid, hcg ▸ h.bound c hc id hid⟩)
    · refine .inl (h.bindingKept cg (fun c hc hcg => ?_) fun c hc hcg => ?_)
      · exact Option.not_isSome_iff_eq_none.mp fun hs => hd ⟨c, hc, hcg, hs⟩
      · exact Option.not_isSome_iff_eq_none.mp fun hs => hb ⟨c, hc, hcg, hs⟩
  classes := fun id i => (h.cleared_or_kept id).elim
    (fun ⟨_, _, _, _, hs, _⟩ => .inr (hs i)) fun hk => .inl (hk.strings i)
  settings := fun id => (h.cleared_or_kept id).elim
    (fun ⟨_, _, _, _, _, hs⟩ => .inr hs) fun hk => .inl hk.settings
  first := fun id => (h.cleared_or_kept id).imp_left
    fun ⟨c, hc, hid, hl, _⟩ => ⟨c, hD hc, hid, hl⟩

theorem Swept.sweeping_dropping (hD : D ⊆ M) (hB : B ⊆ M) (h : Swept applied removed s₁ D B s)
    (hc : c ∈ M) (hid : removed.lookup c.name = some id)
    (hm : Dropping c.cgroupID id s.world.maps m) :
    Sweeping M applied removed s₁.world.maps m where
  cgtracker := hm.cgtracker.trans h.cgtracker
  lookup := by
    intro cg
    rcases hm.lookup cg with hl | ⟨hcg, hl⟩
    · rw [hl]
      exact (h.sweeping hD hB).lookup cg
    · exact .inr (.inl ⟨c, hc, hcg.symm, by simp [hid], hl⟩)
  classes := by
    intro d i
    have hs := (h.sweeping hD hB).classes d i
    by_cases hd : d = id
    · subst hd
      rcases hm.classes i with hl | hl
      · rw [hl]
        exact hs
      · exact .inr hl
    · rw [(hm.others d hd).strings i]
      exact hs
  settings := by
    intro d
    have hs := (h.sweeping hD hB).settings d
    by_cases hd : d = id
    · subst hd
      rcases hm.settings with hl | hl
      · rw [hl]
        exact hs
      · exact .inr hl
    · rw [(hm.others d hd).settings]
      exact hs
  first := by
    intro d
    rcases (h.sweeping hD hB).first d with ⟨c', hc', hid', hl'⟩ | hs
    · refine .inl ⟨c', hc', hid', ?_⟩
      rcases hm.lookup c'.cgroupID with hl | hl
      · exact hl.trans hl'
      · exact hl.2
    · by_cases hd : d = id
      · subst hd
        rcases hm.first with hl | hk
        · exact .inl ⟨c, hc, hid, hl⟩
        · exact .inr (hs.trans hk)
      · exact .inr (hs.trans (hm.others d hd))

theorem Swept.sweeping_binds (hp : Plan M applied removed) (hD : D ⊆ M) (hB : B ⊆ M)
    (h : Swept applied removed s₁ D B s) (hc : c ∈ M) (hid : applied.lookup c.name = some id)
    (hm : Binds c.cgroupID id s.world.maps m) :
    Sweeping M applied removed s₁.world.maps m := by
  -- it is the state after the visit, but for the clock
  have hs : Swept applied removed s₁ D (B ∪ {c}) (s.setWorld { s.world with maps := m }) :=
    Swept.bind hp hD hB h hc hid rfl rfl hm
  refine hs.sweeping hD ?_
  rintro b (hb | rfl)
  · exact hB hb
  · exact hc

theorem Swept.partly (hD : D ⊆ M) (hB : B ⊆ M) (h : Swept applied removed s₁ D B s) :
    Partly M applied removed s₁ D s where
  sub := hD
  next := h.next
  gone := fun c hc id hid => ⟨(h.gone c hc id hid).1, (h.gone c hc id hid).2.1⟩
  polKept := h.polKept
  settingsKept := fun id hid => (h.idKept id hid).settings
  sweeping := h.sweeping hD hB

theorem Swept.partly_of_failed (h : Swept applied removed s₁ D B s) (hD : D ⊆ M)
    (hnext : s'.nextPolicyID = s.nextPolicyID) (hpol : s'.polByContainer = s.polByContainer)
    (hset : s'.world.maps.policySettings = s.world.maps.policySettings)
    (hgone : ∀ cg, s.world.maps.cgToPolicy.lookup cg = none →
      s'.world.maps.cgToPolicy.lookup cg = none)
    (hsw : Sweeping M applied removed s₁.world.maps s'.world.maps) :
    Partly M applied removed s₁ D s' where
  sub := hD
  next := hnext.trans h.next
  gone := by
    intro c hc id hid
    obtain ⟨h₁, h₂, _⟩ := h.gone c hc id hid
    exact ⟨hpol ▸ h₁, hgone _ h₂⟩
  polKept := by
    intro n hn
    rw [hpol]
    exact h.polKept n hn
  settingsKept := by
    intro id hid
    rw [hset]
    exact (h.idKept id hid).settings
  sweeping := hsw

end

/-! ## The loops -/

/-- The moment in the visit of the first container `c` with policy `id` when the string maps are
cleared and the settings are still there: the other containers of that name are still bound. -/
structure Stripped (M : Set ContainerMeta) (c : ContainerMeta) (id : PolicyID) (m₁ m : BpfMaps) :
    Prop where
  strings : ∀ i, m.polStrMaps i id = none
  settings : m.policySettings id = m₁.policySettings id
  lookup : ∀ c' ∈ M, c'.name = c.name → c'.cgroupID ≠ c.cgroupID →
    m.cgToPolicy.lookup c'.cgroupID = m₁.cgToPolicy.lookup c'.cgroupID

/-- The loop's invariant. -/
structure SweepInv (env : Env) (M : Set ContainerMeta) (applied removed : PolicyByContainer)
    (s₁ : PolicyScope) (D B : Set ContainerMeta) (s : PolicyScope) : Prop where
  swept : Swept applied removed s₁ D B s
  subD : D ⊆ M
  subB : B ⊆ M
  runs : Runs env.toManagerEnv (Sweeping M applied removed s₁.world.maps) s₁.world s.world
  stripped : ∀ n id, removed.lookup n = some id → (∃ c ∈ D, c.name = n) → ∃ c ∈ D, c.name = n ∧
    ∃ m, Saw s₁.world s.world m ∧ Stripped M c id s₁.world.maps m

/-- No container to be bound is bound to something else. -/
def Bindable (M : Set ContainerMeta) (applied : PolicyByContainer) (m : BpfMaps) : Prop :=
  ∀ c ∈ M, ∀ id, applied.lookup c.name = some id →
    0 < id ∧ (m.cgToPolicy.lookup c.cgroupID = none ∨ m.cgToPolicy.lookup c.cgroupID = some id)

/-- The loop has failed. -/
structure SweepFails (env : Env) (M : Set ContainerMeta) (applied removed : PolicyByContainer)
    (s₁ : PolicyScope) (e : ResolverErr) (s : PolicyScope) : Prop where
  isBpf : e.isBpf = true
  notPopulate : ∀ wp n b, e ≠ .populate wp n b
  partly : ∃ D, Partly M applied removed s₁ D s
  fails : Fails env.toManagerEnv (Bindable M applied s₁.world.maps)
    (Sweeping M applied removed s₁.world.maps) s₁.world s.world

section

variable {env : Env} {M : Set ContainerMeta} {applied removed : PolicyByContainer}
  {s₁ s : PolicyScope} {D B V : Set ContainerMeta} {key : NamespacedPolicyName} {pod : PodEntry}

theorem PodEntry.metas_eq_range (pod : PodEntry) (o : Order ContainerID ContainerMeta) (n : Nat) :
    {c | ∃ e ∈ o.range n pod.containers, c ∈ ({e.2} : Set ContainerMeta)} = pod.metas := by
  ext c
  constructor
  · rintro ⟨⟨cid, c'⟩, he, rfl⟩
    exact ⟨cid, (o.mem_range n).mp he⟩
  · rintro ⟨cid, hc⟩
    exact ⟨⟨cid, c⟩, (o.mem_range n).mpr hc, rfl⟩

/-- The container is the first of its name: nothing has touched its policy id, nor unbound the
others. -/
theorem Swept.stripped_first {c : ContainerMeta} {id : PolicyID} {m : BpfMaps}
    (h : Swept applied removed s₁ D B s) (hp : Plan M applied removed) (hD : D ⊆ M) (hB : B ⊆ M)
    (hid : removed.lookup c.name = some id) (hfirst : ∀ d ∈ D, d.name ≠ c.name)
    (hm : Dropping c.cgroupID id s.world.maps m ∧ (∀ i, m.polStrMaps i id = none) ∧
      m.policySettings id = s.world.maps.policySettings id) :
    Stripped M c id s₁.world.maps m where
  strings := hm.2.1
  settings := by
    rw [hm.2.2]
    refine (h.idKept id fun d hd hrem => ?_).settings
    exact hfirst d hd (hp.inj _ _ id hrem hid)
  lookup := by
    intro c' hc' hname hne
    rcases hm.1.lookup c'.cgroupID with hl | ⟨heq, _⟩
    · refine hl.trans (h.bindingKept c'.cgroupID (fun d hd hcg => ?_) fun b hb hcg => ?_)
      · exact absurd ((hp.oneName d (hD hd) c' hc' hcg).trans hname) (hfirst d hd)
      · rw [hp.oneName b (hB hb) c' hc' hcg, hname]
        exact hp.disjoint c.name id hid
    · exact absurd heq hne

variable (hp : Plan M applied removed) (hpod : pod.metas ⊆ M)
  (h : SweepInv env M applied removed s₁ D B s)

include hp hpod h

theorem removePolicyFromPod_ends :
    Ends (removePolicyFromPod env key pod removed s)
      (fun _ s' => SweepInv env M applied removed s₁ (D ∪ pod.metas) B s')
      (SweepFails env M applied removed s₁) := by
  unfold removePolicyFromPod
  refine Ends.bind (ends_ok.mpr ?_)
  rw [← pod.metas_eq_range env.containers s.world.clock]
  refine Ends.forM_adds (fun e : Entry ContainerID ContainerMeta => {e.2})
    (fun V s' => SweepInv env M applied removed s₁ V B s') _ (fun e he V s' hI => ?_) D s h
  have hc : e.2 ∈ M := hpod ⟨e.1, (env.containers.mem_range _).mp he⟩
  have hsub : V ∪ {e.2} ⊆ M := by
    rintro c (hV | rfl)
    · exact hI.subD hV
    · exact hc
  cases hid : removed.lookup e.2.name with
  | none =>
    unfold removeFromContainer
    rw [hid]
    refine ends_ok.mpr ⟨hI.swept.skip_drop hid, hsub, hI.subB, hI.runs, ?_⟩
    rintro n id' hid' ⟨c, hmem | rfl, rfl⟩
    · obtain ⟨d, hd, hm⟩ := hI.stripped c.name id' hid' ⟨c, hmem, rfl⟩
      exact ⟨d, .inl hd, hm⟩
    · exact absurd hid' (by simp [hid])
  | some id =>
    have hstates : ∀ m, Dropping e.2.cgroupID id s'.world.maps m →
        Sweeping M applied removed s₁.world.maps m := fun m hm =>
      hI.swept.sweeping_dropping hI.subD hI.subB hc hid hm
    refine (removeFromContainer_ends hid).mono ?_ ?_
    · rintro _ s₂ ⟨hnext, hpol, hruns, hdrop, hmid⟩
      refine ⟨hI.swept.drop hp hI.subB hc hid hnext hpol hdrop, hsub, hI.subB,
        hI.runs.trans (hruns.mono hstates), ?_⟩
      rintro n id' hid' ⟨c, hmem, rfl⟩
      by_cases hV : ∃ d ∈ V, d.name = c.name
      · obtain ⟨d, hd, hname, m, hsaw, hm⟩ := hI.stripped c.name id' hid' hV
        exact ⟨d, .inl hd, hname, m, hsaw.before hruns.moves, hm⟩
      · -- the first container of its name
        obtain rfl : c = e.2 := hmem.resolve_left fun hc' => hV ⟨c, hc', rfl⟩
        obtain rfl : id = id' := Option.some.inj (hid.symm.trans hid')
        obtain ⟨m, hsaw, hm⟩ := hmid
        exact ⟨e.2, .inr rfl, rfl, m, hsaw.after hI.runs.moves,
          hI.swept.stripped_first hp hI.subD hI.subB hid (fun d hd h => hV ⟨d, hd, h⟩) hm⟩
    · rintro err s₂ ⟨⟨hbpf, hnp⟩, hnext, hpol, hf, hset⟩
      have hf' := hI.runs.trans_fails (hf.mono (fun _ : Bindable M applied s₁.world.maps =>
        trivial) hstates)
      have hd := hf.moves.maps Dropping.refl
      refine ⟨hbpf, hnp, ⟨V, ?_⟩, hf'⟩
      refine hI.swept.partly_of_failed hI.subD hnext hpol hset (fun cg hcg => ?_) (hstates _ hd)
      rcases hd.lookup cg with hl | hl
      · exact hl.trans hcg
      · exact hl.2

theorem applyPolicyToPod_ends :
    Ends (applyPolicyToPod env pod applied s.world)
      (fun _ w => SweepInv env M applied removed s₁ D (B ∪ pod.metas) (s.setWorld w))
      (fun e w => SweepFails env M applied removed s₁ e (s.setWorld w)) := by
  unfold applyPolicyToPod
  refine Ends.bind (ends_ok.mpr ?_)
  rw [← pod.metas_eq_range env.containers s.world.clock]
  refine Ends.forM_adds (fun e : Entry ContainerID ContainerMeta => {e.2})
    (fun V w => SweepInv env M applied removed s₁ D V (s.setWorld w)) _
    (fun e he V w hI => ?_) B s.world h
  have hc : e.2 ∈ M := hpod ⟨e.1, (env.containers.mem_range _).mp he⟩
  have hsub : V ∪ {e.2} ⊆ M := by
    rintro c (hV | rfl)
    · exact hI.subB hV
    · exact hc
  cases hid : applied.lookup e.2.name with
  | none =>
    unfold applyToContainer
    rw [hid]
    exact ends_ok.mpr ⟨hI.swept.skip_bind hid, hI.subD, hsub, hI.runs, hI.stripped⟩
  | some id =>
    refine (applyToContainer_ends hid).mono ?_ ?_
    · rintro _ w₂ ⟨_, hruns, hbinds⟩
      refine ⟨Swept.bind hp hI.subD hI.subB hI.swept hc hid rfl rfl hbinds, hI.subD, hsub,
        hI.runs.trans (hruns.mono fun m hm => ?_), fun n id' hid' hex => ?_⟩
      · exact hI.swept.sweeping_binds hp hI.subD hI.subB hc hid hm
      · obtain ⟨d, hd, hname, m, hsaw, hm⟩ := hI.stripped n id' hid' hex
        exact ⟨d, hd, hname, m, hsaw.before hruns.moves, hm⟩
    · rintro err w₂ ⟨hf, _, _, _, b, rfl⟩
      have hw₂ : w₂.maps = w.maps := hf.moves.unchanged
      refine ⟨rfl, by simp, ⟨D, ?_⟩, hI.runs.trans_fails (hf.mono (fun hbind => ?_)
        fun _ h => h.elim)⟩
      · refine hI.swept.partly_of_failed hI.subD rfl rfl ?_ (fun cg hcg => ?_) ?_
        · show w₂.maps.policySettings = _
          rw [hw₂]
          rfl
        · show w₂.maps.cgToPolicy.lookup cg = none
          rw [hw₂]
          exact hcg
        · show Sweeping M applied removed s₁.world.maps w₂.maps
          rw [hw₂]
          exact hI.swept.sweeping hI.subD hI.subB
      · -- nothing the loop has done so far stands in the way of this binding
        obtain ⟨hpos, hl⟩ := hbind e.2 hc id hid
        refine ⟨hpos, ?_⟩
        rcases (hI.swept.sweeping hI.subD hI.subB).lookup e.2.cgroupID with hs | hs | hs
        · exact hl.imp hs.trans hs.trans
        · obtain ⟨_, _, _, _, hs⟩ := hs
          exact .inl hs
        · obtain ⟨c', hc', hcg, id', hid', hs⟩ := hs
          rw [hp.oneName c' hc' e.2 hc hcg, hid] at hid'
          exact .inr (hs.trans hid'.symm)

end

theorem reconcilePods_ends {env : Env} {wp : WorkloadPolicy} {podCache : GoMap PodID PodEntry}
    {applied removed : PolicyByContainer} {s₁ : PolicyScope}
    (hp : Plan (matched podCache wp.namespacedName) applied removed) :
    Ends (reconcilePods env wp podCache applied removed s₁)
      (fun _ s => SweepInv env (matched podCache wp.namespacedName) applied removed s₁
        (matched podCache wp.namespacedName) (matched podCache wp.namespacedName) s)
      (SweepFails env (matched podCache wp.namespacedName) applied removed s₁) := by
  unfold reconcilePods
  refine Ends.bind (ends_ok.mpr ?_)
  let g : Entry PodID PodEntry → Set ContainerMeta := fun e =>
    {c | e.2.podMeta.policyKey = wp.namespacedName ∧ c ∈ e.2.metas}
  have hall : (∅ : Set ContainerMeta) ∪
      {c | ∃ e ∈ env.pods.range s₁.world.clock podCache, c ∈ g e} =
      matched podCache wp.namespacedName := by
    ext c
    simp only [Set.empty_union, Set.mem_ofPred_eq, g, matched]
    constructor
    · rintro ⟨⟨podID, pod⟩, he, hkey, hc⟩
      exact ⟨podID, pod, (env.pods.mem_range _).mp he, hkey, hc⟩
    · rintro ⟨podID, pod, he, hkey, hc⟩
      exact ⟨⟨podID, pod⟩, (env.pods.mem_range _).mpr he, hkey, hc⟩
  have hloop := Ends.forM_adds
    (f := fun e => reconcilePod env wp applied removed e.2)
    (E := SweepFails env (matched podCache wp.namespacedName) applied removed s₁) g
    (fun V s => SweepInv env (matched podCache wp.namespacedName) applied removed s₁ V V s)
    (env.pods.range s₁.world.clock podCache)
    (fun e he V s hI => ?step) ∅ s₁
    ⟨Swept.refl, by simp, by simp, Runs.refl, fun _ _ _ ⟨_, hc, _⟩ => absurd hc (by simp)⟩
  case step =>
    unfold reconcilePod
    by_cases hm : e.2.matchPolicy wp.name wp.ns = true
    · rw [if_pos hm]
      have hkey := PodEntry.matchPolicy_iff.mp hm
      have hpod : e.2.metas ⊆ matched podCache wp.namespacedName := fun c hc =>
        ⟨e.1, e.2, (env.pods.mem_range _).mp he, hkey, hc⟩
      have hg : g e = e.2.metas := by
        ext c
        exact ⟨fun h => h.2, fun h => ⟨hkey, h⟩⟩
      rw [hg]
      refine Ends.bind ((removePolicyFromPod_ends hp hpod hI).mono (fun _ s' h' => ?_)
        (fun _ _ h => h))
      exact Ends.zoom (applyPolicyToPod_ends hp hpod h')
    · rw [if_neg hm]
      have hg : g e = ∅ := by
        ext c
        exact ⟨fun h => absurd (PodEntry.matchPolicy_iff.mpr h.1) hm, fun h => h.elim⟩
      rw [hg, Set.union_empty]
      exact ends_ok.mpr hI
  rw [hall] at hloop
  exact hloop

end RuntimeEnforcer
