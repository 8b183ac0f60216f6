import RuntimeEnforcer.Proof.Sweep

/-!
# What a reconcile does to the policy's own ids

`syncWorkloadPolicy` writes the rules of every container of the spec: under the id its name has, or
under a new one. It binds nothing, and the new ids are not recorded before it returns. The state
after some of the containers is again described by which ones they are (`Synced`); ids in use are
pairwise different and below `nextPolicyID`, so writing one leaves the others alone.
-/

set_option autoImplicit false

namespace RuntimeEnforcer

open Lib

/-- The ids a policy holds are its own and have settings, and the ids to come have nothing
stored. -/
structure Allocated (s : PolicyScope) : Prop where
  nextPos : 0 < s.nextPolicyID
  pos : ∀ n id, s.polByContainer.lookup n = some id → 0 < id
  lt : ∀ n id, s.polByContainer.lookup n = some id → id < s.nextPolicyID
  inj : ∀ n n' id, s.polByContainer.lookup n = some id → s.polByContainer.lookup n' = some id →
    n = n'
  settings : ∀ n id, s.polByContainer.lookup n = some id →
    (s.world.maps.policySettings id).isSome
  fresh : ∀ id, s.nextPolicyID ≤ id → ∀ i, s.world.maps.polStrMaps i id = none

/-- The rules of a container are what is stored under `id`. -/
structure Carries (env : Env) (wp : WorkloadPolicy) (rules : WorkloadPolicyRules) (m : BpfMaps)
    (id : PolicyID) : Prop where
  strings : ∀ i, m.polStrMaps i id = newClass env.toManagerEnv rules.allowed i
  valid : ∀ v ∈ rules.allowed, ValidValue env.currKernelVersion v
  settings : m.policySettings id = some (settingsOf wp.mode rules.allowForeignRootExec)

/-- The state after the containers `V` of the spec, `new` being the ids given out. -/
structure Synced (env : Env) (wp : WorkloadPolicy) (s₀ : PolicyScope) (V : Set ContainerName)
    (new : PolicyByContainer) (s : PolicyScope) : Prop where
  pol : s.polByContainer = s₀.polByContainer
  next : s₀.nextPolicyID ≤ s.nextPolicyID
  cgtracker : s.world.maps.cgtracker = s₀.world.maps.cgtracker
  cgToPolicy : s.world.maps.cgToPolicy = s₀.world.maps.cgToPolicy
  newId : ∀ n id, new.lookup n = some id → n ∈ V ∧ s₀.polByContainer.lookup n = none ∧
    s₀.nextPolicyID ≤ id ∧ id < s.nextPolicyID
  newInj : ∀ n n' id, new.lookup n = some id → new.lookup n' = some id → n = n'
  stored : ∀ n ∈ V, ∀ rules, wp.rulesByContainer.lookup n = some rules →
    ∃ id, (new.lookup n).or (s₀.polByContainer.lookup n) = some id ∧
      Carries env wp rules s.world.maps id
  kept : ∀ id, id < s₀.nextPolicyID → (∀ n ∈ V, s₀.polByContainer.lookup n ≠ some id) →
    SameId id s₀.world.maps s.world.maps
  fresh : ∀ id, s.nextPolicyID ≤ id → SameId id s₀.world.maps s.world.maps

/-- A state the loop goes through: an id in the spec has old strings and settings, or new strings
and old settings, or is done; other ids in use are untouched. -/
structure Syncing (env : Env) (wp : WorkloadPolicy) (s₀ : PolicyScope) (m : BpfMaps) : Prop where
  cgtracker : m.cgtracker = s₀.world.maps.cgtracker
  cgToPolicy : m.cgToPolicy = s₀.world.maps.cgToPolicy
  written : ∀ n rules id, wp.rulesByContainer.lookup n = some rules →
    s₀.polByContainer.lookup n = some id →
    Partway id (newClass env.toManagerEnv rules.allowed)
      (some (settingsOf wp.mode rules.allowForeignRootExec)) s₀.world.maps m
  kept : ∀ id, id < s₀.nextPolicyID →
    (∀ n, s₀.polByContainer.lookup n = some id → wp.names n = false) →
    SameId id s₀.world.maps m

/-- `id` is where the rules of `n` go. -/
structure GoesTo (wp : WorkloadPolicy) (s₀ : PolicyScope) (n : ContainerName)
    (rules : WorkloadPolicyRules) (id : PolicyID) : Prop where
  rules : wp.rulesByContainer.lookup n = some rules
  id : s₀.polByContainer.lookup n = some id ∨ s₀.nextPolicyID ≤ id

section

variable {env : Env} {wp : WorkloadPolicy} {s₀ s s' : PolicyScope} {V : Set ContainerName}
  {new : PolicyByContainer} {n : ContainerName} {rules : WorkloadPolicyRules} {id : PolicyID}
  {m : BpfMaps} {w' : World}

theorem WorkloadPolicy.names_of_lookup (h : wp.rulesByContainer.lookup n = some rules) :
    wp.names n = true := by
  simp [WorkloadPolicy.names, h]

/-- An id that takes rules of the spec is not one of those the spec has nothing to say about. -/
theorem GoesTo.ne (h : GoesTo wp s₀ n rules id) {d : PolicyID} (hd : d < s₀.nextPolicyID)
    (hnot : ∀ n, s₀.polByContainer.lookup n = some d → wp.names n = false) : d ≠ id := by
  rintro rfl
  rcases h.id with hid | hid
  · exact absurd (hnot n hid) (by simp [WorkloadPolicy.names_of_lookup h.rules])
  · exact absurd hd (Nat.not_lt.mpr hid)

theorem Synced.refl : Synced env wp s₀ ∅ ∅ s₀ where
  pol := rfl
  next := Nat.le_refl _
  cgtracker := rfl
  cgToPolicy := rfl
  newId := fun _ _ h => absurd h (by simp)
  newInj := fun _ _ _ h => absurd h (by simp)
  stored := fun _ h => absurd h (by simp)
  kept := fun _ _ _ => SameId.refl
  fresh := fun _ _ => SameId.refl

theorem Synced.carries_or_same (ha : Allocated s₀) (h : Synced env wp s₀ V new s)
    (hn : wp.rulesByContainer.lookup n = some rules) (hid : s₀.polByContainer.lookup n = some id) :
    Carries env wp rules s.world.maps id ∨ SameId id s₀.world.maps s.world.maps := by
  by_cases hV : n ∈ V
  · obtain ⟨id', hid', hc⟩ := h.stored n hV rules hn
    cases hnew : new.lookup n with
    | some d => exact absurd (h.newId n d hnew).2.1 (by simp [hid])
    | none =>
      rw [hnew, hid] at hid'
      obtain rfl : id = id' := Option.some.inj hid'
      exact .inl hc
  · refine .inr (h.kept id (ha.lt n id hid) fun n' hn' hid' => hV ?_)
    exact ha.inj n n' id hid hid' ▸ hn'

theorem Synced.syncing_rewrites (ha : Allocated s₀) (hV : ∀ n ∈ V, wp.names n = true)
    (h : Synced env wp s₀ V new s) (hg : GoesTo wp s₀ n rules id)
    (hm : Rewrites id (newClass env.toManagerEnv rules.allowed)
      (some (settingsOf wp.mode rules.allowForeignRootExec)) s.world.maps m) :
    Syncing env wp s₀ m where
  cgtracker := hm.cgtracker.trans h.cgtracker
  cgToPolicy := hm.cgToPolicy.trans h.cgToPolicy
  written := by
    intro n' rules' id' hn' hid'
    by_cases heq : id' = id
    · subst heq
      -- it is the same container: the id is in use
      rcases hg.id with hid | hid
      swap
      · exact absurd (ha.lt n' id' hid') (Nat.not_lt.mpr hid)
      obtain rfl := ha.inj n n' id' hid hid'
      obtain rfl : rules = rules' := Option.some.inj (hg.rules.symm.trans hn')
      rcases h.carries_or_same ha hn' hid' with hc | hs
      · have hcl : ∀ i, m.polStrMaps i id' = newClass env.toManagerEnv rules.allowed i := fun i =>
          (hm.classes i).elim (fun h => h.trans (hc.strings i)) fun h => h
        refine ⟨fun i => .inr (hcl i), .inr ⟨?_, hcl⟩⟩
        exact hm.settings.elim (fun h => h.trans hc.settings) fun h => h.1
      · refine ⟨fun i => ?_, ?_⟩
        · rw [← hs.strings i]
          exact hm.classes i
        · rw [← hs.settings]
          exact hm.settings
    · have hsame := hm.others id' heq
      rcases h.carries_or_same ha hn' hid' with hc | hs
      · have hcl := fun i => (hsame.strings i).trans (hc.strings i)
        exact ⟨fun i => .inr (hcl i), .inr ⟨hsame.settings.trans hc.settings, hcl⟩⟩
      · have hs' := hs.trans hsame
        exact ⟨fun i => .inl (hs'.strings i), .inl hs'.settings⟩
  kept := by
    intro d hd hnot
    refine (h.kept d hd fun n' hn' hid' => ?_).trans (hm.others d (hg.ne hd hnot))
    exact absurd (hnot n' hid') (by simp [hV n' hn'])

theorem Synced.stored_of_rewrites (h : Synced env wp s₀ V new s) {n' : ContainerName}
    {rules' : WorkloadPolicyRules} (hn' : n' ∈ V)
    (hr' : wp.rulesByContainer.lookup n' = some rules')
    (hne : ∀ d, (new.lookup n').or (s₀.polByContainer.lookup n') = some d → d ≠ id)
    {T : (i : MapIndex) → Option (InnerMap (stringMapsSizes i))} {S : Option PolicySettings}
    (hm : Rewrites id T S s.world.maps m) :
    ∃ d, (new.lookup n').or (s₀.polByContainer.lookup n') = some d ∧ Carries env wp rules' m d := by
  obtain ⟨d, hd, hc⟩ := h.stored n' hn' rules' hr'
  have hs := hm.others d (hne d hd)
  exact ⟨d, hd, fun i => (hs.strings i).trans (hc.strings i), hc.valid,
    hs.settings.trans hc.settings⟩

theorem Synced.replace (ha : Allocated s₀) (h : Synced env wp s₀ V new s)
    (hn : wp.rulesByContainer.lookup n = some rules) (hid : s₀.polByContainer.lookup n = some id)
    (hw : Rewrote env.toManagerEnv id (newClass env.toManagerEnv rules.allowed)
      (some (settingsOf wp.mode rules.allowForeignRootExec)) s.world w')
    (hv : ∀ v ∈ rules.allowed, ValidValue env.currKernelVersion v) :
    Synced env wp s₀ (V ∪ {n}) new (s.setWorld w') where
  pol := h.pol
  next := h.next
  cgtracker := hw.rewrites.cgtracker.trans h.cgtracker
  cgToPolicy := hw.rewrites.cgToPolicy.trans h.cgToPolicy
  newId := fun n' d hd => ⟨.inl (h.newId n' d hd).1, (h.newId n' d hd).2⟩
  newInj := h.newInj
  stored := by
    intro n' hn' rules' hr'
    by_cases heq : n' = n
    · subst heq
      obtain rfl : rules = rules' := Option.some.inj (hn.symm.trans hr')
      refine ⟨id, ?_, hw.stored, hv, hw.settings⟩
      cases hnew : new.lookup n' with
      | some d => exact absurd (h.newId n' d hnew).2.1 (by simp [hid])
      | none => exact hid
    · refine h.stored_of_rewrites (hn'.resolve_right heq) hr' ?_ hw.rewrites
      rintro d hd rfl
      cases hnew : new.lookup n' with
      | some d' =>
        rw [hnew] at hd
        obtain rfl : d' = d := Option.some.inj hd
        exact absurd (ha.lt n d' hid) (Nat.not_lt.mpr (h.newId n' d' hnew).2.2.1)
      | none =>
        rw [hnew] at hd
        exact heq (ha.inj n' n d hd hid)
  kept := by
    intro d hd hnot
    refine (h.kept d hd fun n' hn' => hnot n' (.inl hn')).trans (hw.rewrites.others d ?_)
    rintro rfl
    exact hnot n (.inr rfl) hid
  fresh := by
    intro d hd
    refine (h.fresh d hd).trans (hw.rewrites.others d ?_)
    rintro rfl
    exact absurd (Nat.lt_of_lt_of_le (ha.lt n d hid) h.next) (Nat.not_lt.mpr hd)

theorem Synced.add (ha : Allocated s₀) (h : Synced env wp s₀ V new s)
    (hn : wp.rulesByContainer.lookup n = some rules) (hnone : s₀.polByContainer.lookup n = none)
    (hw : Rewrote env.toManagerEnv s.nextPolicyID (newClass env.toManagerEnv rules.allowed)
      (some (settingsOf wp.mode rules.allowForeignRootExec)) s.world w')
    (hv : ∀ v ∈ rules.allowed, ValidValue env.currKernelVersion v) :
    Synced env wp s₀ (V ∪ {n}) (new.insert n s.nextPolicyID)
      { s with nextPolicyID := s.nextPolicyID + 1, world := w' } where
  pol := h.pol
  next := Nat.le_succ_of_le h.next
  cgtracker := hw.rewrites.cgtracker.trans h.cgtracker
  cgToPolicy := hw.rewrites.cgToPolicy.trans h.cgToPolicy
  newId := by
    intro n' d hd
    rw [GoMap.lookup_insert_eq] at hd
    split at hd
    · next heq =>
      obtain rfl := Option.some.inj hd
      exact ⟨.inr heq, heq ▸ hnone, h.next, Nat.lt_succ_self _⟩
    · obtain ⟨h₁, h₂, h₃, h₄⟩ := h.newId n' d hd
      exact ⟨.inl h₁, h₂, h₃, Nat.lt_succ_of_lt h₄⟩
  newInj := by
    intro n₁ n₂ d h₁ h₂
    rw [GoMap.lookup_insert_eq] at h₁ h₂
    split at h₁ <;> split at h₂
    · next heq₁ heq₂ => exact heq₁.trans heq₂.symm
    · obtain rfl := Option.some.inj h₁
      exact absurd (h.newId n₂ _ h₂).2.2.2 (Nat.lt_irrefl _)
    · obtain rfl := Option.some.inj h₂
      exact absurd (h.newId n₁ _ h₁).2.2.2 (Nat.lt_irrefl _)
    · exact h.newInj n₁ n₂ d h₁ h₂
  stored := by
    intro n' hn' rules' hr'
    by_cases heq : n' = n
    · subst heq
      obtain rfl : rules = rules' := Option.some.inj (hn.symm.trans hr')
      refine ⟨s.nextPolicyID, ?_, hw.stored, hv, hw.settings⟩
      rw [GoMap.lookup_insert_eq, if_pos rfl]
      rfl
    · rw [GoMap.lookup_insert_eq, if_neg heq]
      refine h.stored_of_rewrites (hn'.resolve_right heq) hr' ?_ hw.rewrites
      rintro d hd rfl
      -- ids in use are below the next one
      cases hnew : new.lookup n' with
      | some d' =>
        rw [hnew] at hd
        obtain rfl := Option.some.inj hd
        exact absurd (h.newId n' _ hnew).2.2.2 (Nat.lt_irrefl _)
      | none =>
        rw [hnew] at hd
        exact absurd (Nat.lt_of_lt_of_le (ha.lt n' _ hd) h.next) (Nat.lt_irrefl _)
  kept := by
    intro d hd hnot
    refine (h.kept d hd fun n' hn' => hnot n' (.inl hn')).trans (hw.rewrites.others d ?_)
    rintro rfl
    exact absurd h.next (Nat.not_le.mpr hd)
  fresh := by
    intro d hd
    refine (h.fresh d (Nat.le_of_succ_le hd)).trans (hw.rewrites.others d ?_)
    rintro rfl
    exact absurd hd (Nat.not_succ_le_self _)

end

/-! ## The loop -/

/-- The loop's invariant. `halfway` is the moment when an id has its new strings and its old
settings. -/
structure SyncInv (env : Env) (wp : WorkloadPolicy) (s₀ : PolicyScope) (V : Set ContainerName)
    (new : PolicyByContainer) (s : PolicyScope) : Prop where
  synced : Synced env wp s₀ V new s
  inSpec : ∀ n ∈ V, wp.names n = true
  runs : Runs env.toManagerEnv (Syncing env wp s₀) s₀.world s.world
  halfway : ∀ n ∈ V, ∀ rules id, wp.rulesByContainer.lookup n = some rules →
    s₀.polByContainer.lookup n = some id →
    ∃ m, Saw s₀.world s.world m ∧ Syncing env wp s₀ m ∧
      (∀ i, m.polStrMaps i id = newClass env.toManagerEnv rules.allowed i) ∧
      m.policySettings id = s₀.world.maps.policySettings id

/-- Every list of the spec can be stored. -/
def WorkloadPolicy.Acceptable (env : Env) (wp : WorkloadPolicy) : Prop :=
  ∀ n rules, wp.rulesByContainer.lookup n = some rules →
    RuntimeEnforcer.Acceptable env.toManagerEnv rules.allowed

/-- The loop has failed. -/
structure SyncFails (env : Env) (wp : WorkloadPolicy) (s₀ : PolicyScope) (e : ResolverErr)
    (s : PolicyScope) : Prop where
  isPopulate : ∃ n b, e = .populate wp.namespacedName n b
  pol : s.polByContainer = s₀.polByContainer
  next : s₀.nextPolicyID ≤ s.nextPolicyID
  settingsKept : ∀ id, id < s₀.nextPolicyID → (s₀.world.maps.policySettings id).isSome →
    (s.world.maps.policySettings id).isSome
  fresh : ∀ id, s.nextPolicyID ≤ id → SameId id s₀.world.maps s.world.maps
  syncing : Syncing env wp s₀ s.world.maps
  fails : Fails env.toManagerEnv (wp.Acceptable env) (Syncing env wp s₀) s₀.world s.world

section

variable {env : Env} {wp : WorkloadPolicy} {s₀ s s' : PolicyScope} {V : Set ContainerName}
  {new : PolicyByContainer} {n : ContainerName} {rules : WorkloadPolicyRules} {id : PolicyID}

theorem Synced.settings_isSome (ha : Allocated s₀) (h : Synced env wp s₀ V new s)
    (hV : ∀ n ∈ V, wp.names n = true) (hid : id < s₀.nextPolicyID)
    (hs : (s₀.world.maps.policySettings id).isSome) :
    (s.world.maps.policySettings id).isSome := by
  by_cases hex : ∃ n ∈ V, s₀.polByContainer.lookup n = some id
  · obtain ⟨n, hn, hpol⟩ := hex
    obtain ⟨rules, hr⟩ := Option.isSome_iff_exists.mp (hV n hn)
    rcases h.carries_or_same ha hr hpol with hc | hsame
    · simp [hc.settings]
    · rw [hsame.settings]
      exact hs
  · rw [(h.kept id hid fun n hn hpol => hex ⟨n, hn, hpol⟩).settings]
    exact hs

theorem Synced.fails (s' : PolicyScope) (ha : Allocated s₀) (h : SyncInv env wp s₀ V new s)
    (hg : GoesTo wp s₀ n rules id) (hpol : s'.polByContainer = s.polByContainer)
    (hnext : s.nextPolicyID ≤ s'.nextPolicyID) (hid : id < s'.nextPolicyID) {b : BpfErr}
    (hf : Fails env.toManagerEnv (Acceptable env.toManagerEnv rules.allowed)
      (Rewrites id (newClass env.toManagerEnv rules.allowed)
        (some (settingsOf wp.mode rules.allowForeignRootExec)) s.world.maps) s.world s'.world)
    (hset : s'.world.maps.policySettings = s.world.maps.policySettings) :
    SyncFails env wp s₀ (.populate wp.namespacedName n b) s' := by
  have hrw := hf.moves.maps Rewrites.refl
  have hstates := fun m hm => h.synced.syncing_rewrites (m := m) ha h.inSpec hg hm
  refine ⟨⟨n, b, rfl⟩, hpol.trans h.synced.pol, Nat.le_trans h.synced.next hnext, ?_, ?_,
    hstates _ hrw, h.runs.trans_fails (hf.mono (fun hacc => hacc n rules hg.rules) hstates)⟩
  · intro d hd hs
    rw [hset]
    exact h.synced.settings_isSome ha h.inSpec hd hs
  · intro d hd
    refine (h.synced.fresh d (Nat.le_trans hnext hd)).trans (hrw.others d ?_)
    rintro rfl
    exact absurd hid (Nat.not_lt.mpr hd)

theorem syncContainer_ends (ha : Allocated s₀) (h : SyncInv env wp s₀ V new s)
    (hn : wp.rulesByContainer.lookup n = some rules) :
    Ends (syncContainer env wp new ⟨n, rules⟩ s)
      (fun new' s' => SyncInv env wp s₀ (V ∪ {n}) new' s') (SyncFails env wp s₀) := by
  have hV : ∀ n' ∈ V ∪ {n}, wp.names n' = true := by
    rintro n' (hn' | rfl)
    · exact h.inSpec n' hn'
    · exact WorkloadPolicy.names_of_lookup hn
  unfold syncContainer
  refine Ends.bind (ends_ok.mpr ?_)
  simp only [h.synced.pol]
  cases hpol : s₀.polByContainer.lookup n with
  | some id =>
    have hg : GoesTo wp s₀ n rules id := ⟨hn, .inl hpol⟩
    refine Ends.bind (Ends.zoom ((call_ends (upsertPolicyIDInBPF_ends (.inl rfl))).mono ?_ ?_))
    · rintro _ w' ⟨hw, hv⟩
      have hstates := fun m hm => h.synced.syncing_rewrites (m := m) ha h.inSpec hg hm
      refine ends_ok.mpr
        ⟨h.synced.replace ha hn hpol hw hv, hV, h.runs.trans (hw.runs.mono hstates),
        fun n' hn' rules' id' hr' hid' => ?_⟩
      by_cases hold : n' ∈ V
      · obtain ⟨m, hsaw, hm⟩ := h.halfway n' hold rules' id' hr' hid'
        exact ⟨m, hsaw.before hw.runs.moves, hm⟩
      · obtain rfl : n' = n := hn'.resolve_left hold
        obtain rfl : rules = rules' := Option.some.inj (hn.symm.trans hr')
        obtain rfl : id = id' := Option.some.inj (hpol.symm.trans hid')
        -- the id is untouched before its container is visited
        have hkept := h.synced.kept id (ha.lt n' id hpol) fun k hk hid =>
          hold (ha.inj n' k id hpol hid ▸ hk)
        obtain ⟨m, hsaw, hb, hT⟩ := hw.halfway
        refine ⟨m, hsaw.after h.runs.moves, hstates m hb.rewrites, hT, ?_⟩
        rw [hb.policySettings]
        exact hkept.settings
    · rintro _ w' ⟨⟨hf, hset⟩, b, rfl⟩
      exact Synced.fails (s.setWorld w') ha h hg rfl (Nat.le_refl _)
        (Nat.lt_of_lt_of_le (ha.lt n id hpol) h.synced.next) hf hset
  | none =>
    have hg : GoesTo wp s₀ n rules s.nextPolicyID := ⟨hn, .inr h.synced.next⟩
    have hfresh : ∀ i, s.world.maps.polStrMaps i s.nextPolicyID = none := fun i =>
      ((h.synced.fresh _ (Nat.le_refl _)).strings i).trans (ha.fresh _ h.synced.next i)
    refine Ends.bind (ends_ok.mpr ?_)
    refine Ends.bind (Ends.zoom ((call_ends (upsertPolicyIDInBPF_ends (.inr ⟨rfl, hfresh⟩))).mono
      ?_ ?_))
    · rintro _ w' ⟨hw, hv⟩
      refine ends_ok.mpr ⟨h.synced.add ha hn hpol hw hv, hV, h.runs.trans (hw.runs.mono ?_),
        fun n' hn' rules' id' hr' hid' => ?_⟩
      · exact fun m hm => h.synced.syncing_rewrites ha h.inSpec hg hm
      · have hold : n' ∈ V := hn'.resolve_right fun heq => by
          rw [heq, hpol] at hid'
          exact absurd hid' (by simp)
        obtain ⟨m, hsaw, hm⟩ := h.halfway n' hold rules' id' hr' hid'
        exact ⟨m, hsaw.before hw.runs.moves, hm⟩
    · rintro _ w' ⟨⟨hf, hset⟩, b, rfl⟩
      exact Synced.fails { s with nextPolicyID := s.nextPolicyID + 1, world := w' } ha h hg rfl
        (Nat.le_succ _) (Nat.lt_succ_self _) hf hset

end

theorem syncWorkloadPolicy_ends {env : Env} {wp : WorkloadPolicy} {s₀ : PolicyScope}
    (ha : Allocated s₀) :
    Ends (syncWorkloadPolicy env wp s₀)
      (fun new s => SyncInv env wp s₀ {n | wp.names n = true} new s) (SyncFails env wp s₀) := by
  unfold syncWorkloadPolicy
  refine Ends.bind (ends_ok.mpr ?_)
  have hloop := Ends.foldlM_adds (f := syncContainer env wp) (E := SyncFails env wp s₀)
    (fun e => {e.1}) (fun V new s => SyncInv env wp s₀ V new s)
    (env.rules.range s₀.world.clock wp.rulesByContainer)
    (fun e he V new s hI => syncContainer_ends ha hI ((env.rules.mem_range _).mp he))
    ∅ ∅ s₀ ⟨Synced.refl, by simp, Runs.refl, fun _ h => absurd h (by simp)⟩
  rw [env.rules.keys_range] at hloop
  exact hloop

end RuntimeEnforcer
