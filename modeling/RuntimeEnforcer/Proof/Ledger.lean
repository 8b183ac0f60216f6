import RuntimeEnforcer.Proof.Sound

/-!
# Policy ids, whatever is reported

What each operation does to the policy ids and to what is stored under them, with no assumption on
the containers the runtime reports: two of them may share a cgroup. Bindings may then be anything,
but an id has one owner. `syncWorkloadPolicy` gives out ids one after another and writes each under
the rules of one name (`Logged`); everything else an operation does can only take things away
(`Thinning`). `Ids` is what every run keeps.
-/

set_option autoImplicit false

namespace RuntimeEnforcer

open Lib

/-! ## Contents -/

variable {n : ContainerName} {rules : WorkloadPolicyRules}

/-- Something is stored under `id`. -/
def Populated (m : BpfMaps) (id : PolicyID) : Prop :=
  (∃ i, (m.polStrMaps i id).isSome) ∨ (m.policySettings id).isSome

instance (m : BpfMaps) (id : PolicyID) : Decidable (Populated m id) := by
  unfold Populated; infer_instance

/-- From `m₀` to `m` nothing was written under an id, what was taken away was under the ids `D`, and
what was bound is in `B`. -/
structure Thinning (D : Set PolicyID) (B : Set (CgroupID × PolicyID)) (m₀ m : BpfMaps) : Prop where
  strings : ∀ id i, m.polStrMaps i id = m₀.polStrMaps i id ∨ m.polStrMaps i id = none
  settings : ∀ id, m.policySettings id = m₀.policySettings id ∨ m.policySettings id = none
  kept : ∀ id, id ∉ D → SameId id m₀ m
  bound : ∀ cg id, m.cgToPolicy.lookup cg = some id →
    m₀.cgToPolicy.lookup cg = some id ∨ (cg, id) ∈ B

/-- From `m₀` to `m` what was written under an id are the rules of a name in `wp` that the id
belongs to, and what was bound is in `B`. -/
structure Sourced (env : Env) (wp : WorkloadPolicy) (own : Set (ContainerName × PolicyID))
    (B : Set (CgroupID × PolicyID)) (m₀ m : BpfMaps) : Prop where
  strings : ∀ id i, m.polStrMaps i id = m₀.polStrMaps i id ∨ m.polStrMaps i id = none ∨
    ∃ n rules, (n, id) ∈ own ∧ wp.rulesByContainer.lookup n = some rules ∧
      m.polStrMaps i id = newClass env.toManagerEnv rules.allowed i
  settings : ∀ id, m.policySettings id = m₀.policySettings id ∨ m.policySettings id = none ∨
    ∃ n rules, (n, id) ∈ own ∧ wp.rulesByContainer.lookup n = some rules ∧
      m.policySettings id = some (settingsOf wp.mode rules.allowForeignRootExec)
  bound : ∀ cg id, m.cgToPolicy.lookup cg = some id →
    m₀.cgToPolicy.lookup cg = some id ∨ (cg, id) ∈ B

/-- Steps of a transitive relation between the state a call starts in and those it goes through. -/
theorem Moves.chain {P : BpfMaps → BpfMaps → Prop} (hrefl : ∀ m, P m m)
    (htrans : ∀ a b c, P a b → P b c → P a c) {w w₁ w₂ : World} (h₁ : Moves (P w.maps) w w₁)
    (h₂ : Moves (P w₁.maps) w₁ w₂) : Moves (P w.maps) w w₂ :=
  h₁.trans (h₂.mono fun _ hm => htrans _ _ _ (h₁.maps (hrefl _)) hm)

section

variable {env : Env} {wp : WorkloadPolicy} {D D' : Set PolicyID} {B B' : Set (CgroupID × PolicyID)}
  {own own' : Set (ContainerName × PolicyID)} {m₀ m₁ m : BpfMaps} {id : PolicyID} {cg : CgroupID}
  {w w₁ w₂ : World}

theorem Thinning.refl (m : BpfMaps) : Thinning D B m m :=
  ⟨fun _ _ => .inl rfl, fun _ => .inl rfl, fun _ _ => SameId.refl, fun _ _ h => .inl h⟩

theorem Thinning.trans (h₁ : Thinning D B m₀ m₁) (h₂ : Thinning D B m₁ m) : Thinning D B m₀ m where
  strings id i := by
    rcases h₂.strings id i with h | h
    · rw [h]
      exact h₁.strings id i
    · exact .inr h
  settings id := by
    rcases h₂.settings id with h | h
    · rw [h]
      exact h₁.settings id
    · exact .inr h
  kept id hid := (h₁.kept id hid).trans (h₂.kept id hid)
  bound cg id h := (h₂.bound cg id h).elim (h₁.bound cg id) .inr

theorem Thinning.mono (hD : D ⊆ D') (hB : B ⊆ B') (h : Thinning D B m₀ m) : Thinning D' B' m₀ m :=
  ⟨h.strings, h.settings, fun id hid => h.kept id fun hmem => hid (hD hmem),
    fun cg id hid => (h.bound cg id hid).imp_right fun hmem => hB hmem⟩

theorem Moves.thin (h₁ : Moves (Thinning D B w.maps) w w₁)
    (h₂ : Moves (Thinning D B w₁.maps) w₁ w₂) : Moves (Thinning D B w.maps) w w₂ :=
  h₁.chain Thinning.refl (fun _ _ _ => Thinning.trans) h₂

theorem Thinning.populated (h : Thinning D B m₀ m) (hp : Populated m id) : Populated m₀ id := by
  rcases hp with ⟨i, hi⟩ | hs
  · rcases h.strings id i with h | h
    · exact .inl ⟨i, h ▸ hi⟩
    · exact absurd hi (by simp [h])
  · rcases h.settings id with h | h
    · exact .inr (h ▸ hs)
    · exact absurd hs (by simp [h])

theorem SameId.populated (h : SameId id m₀ m) : Populated m id ↔ Populated m₀ id := by
  unfold Populated
  simp only [h.strings, h.settings]

/-! Each kind of call. -/

theorem Tracks.thinning (h : Tracks m₀ m) : Thinning D B m₀ m where
  strings id i := .inl (by rw [h.polStrMaps])
  settings id := .inl (by rw [h.policySettings])
  kept id _ := ⟨fun i => by rw [h.polStrMaps], by rw [h.policySettings]⟩
  bound cg id hid := .inl (by rwa [h.cgToPolicy] at hid)

theorem Binds.thinning (h : Binds cg id m₀ m) (hmem : (cg, id) ∈ B) : Thinning D B m₀ m where
  strings d i := .inl (by rw [h.polStrMaps])
  settings d := .inl (by rw [h.policySettings])
  kept d _ := ⟨fun i => by rw [h.polStrMaps], by rw [h.policySettings]⟩
  bound c d hd := by
    rw [h.lookup] at hd
    split at hd
    · next hc => exact .inr (hc ▸ Option.some.inj hd ▸ hmem)
    · exact .inl hd

theorem Releases.thinning (h : Releases id m₀ m) : Thinning D B m₀ m where
  strings d i := .inl (by rw [h.polStrMaps])
  settings d := .inl (by rw [h.policySettings])
  kept d _ := ⟨fun i => by rw [h.polStrMaps], by rw [h.policySettings]⟩
  bound c d hd := by
    rcases h.lookup c with hl | hl
    · exact .inl (hl ▸ hd)
    · exact absurd hd (by simp [hl.2])

theorem thinning_unbindCgroup : Thinning D B m₀ (m₀.unbindCgroup cg) where
  strings d i := .inl rfl
  settings d := .inl rfl
  kept d _ := ⟨fun _ => rfl, rfl⟩
  bound c d hd := by
    rw [BpfMaps.lookup_unbindCgroup] at hd
    split at hd
    · exact absurd hd (by simp)
    · exact .inl hd

theorem Rewrites.thinning (h : Rewrites id (fun _ => none) none m₀ m) (hmem : id ∈ D) :
    Thinning D B m₀ m where
  strings d i := by
    by_cases hd : d = id
    · exact hd ▸ h.classes i
    · exact .inl ((h.others d hd).strings i)
  settings d := by
    by_cases hd : d = id
    · exact hd ▸ h.settings.imp_right (·.1)
    · exact .inl (h.others d hd).settings
  kept d hd := h.others d fun heq => hd (heq ▸ hmem)
  bound c d hd := .inl (h.cgToPolicy ▸ hd)

theorem Dropping.thinning (h : Dropping cg id m₀ m) (hmem : id ∈ D) : Thinning D B m₀ m where
  strings d i := by
    by_cases hd : d = id
    · exact hd ▸ h.classes i
    · exact .inl ((h.others d hd).strings i)
  settings d := by
    by_cases hd : d = id
    · exact hd ▸ h.settings
    · exact .inl (h.others d hd).settings
  kept d hd := h.others d fun heq => hd (heq ▸ hmem)
  bound c d hd := by
    rcases h.lookup c with hl | hl
    · exact .inl (hl ▸ hd)
    · exact absurd hd (by simp [hl.2])

theorem Sourced.refl (m : BpfMaps) : Sourced env wp own B m m :=
  ⟨fun _ _ => .inl rfl, fun _ => .inl rfl, fun _ _ h => .inl h⟩

theorem Sourced.trans (h₁ : Sourced env wp own B m₀ m₁) (h₂ : Sourced env wp own B m₁ m) :
    Sourced env wp own B m₀ m where
  strings id i := by
    rcases h₂.strings id i with h | h
    · rw [h]
      exact h₁.strings id i
    · exact .inr h
  settings id := by
    rcases h₂.settings id with h | h
    · rw [h]
      exact h₁.settings id
    · exact .inr h
  bound cg id h := (h₂.bound cg id h).elim (h₁.bound cg id) .inr

theorem Sourced.mono (hown : own ⊆ own') (hB : B ⊆ B') (h : Sourced env wp own B m₀ m) :
    Sourced env wp own' B' m₀ m where
  strings id i := (h.strings id i).imp_right (·.imp_right
    fun ⟨n, rules, hs, hr⟩ => ⟨n, rules, hown hs, hr⟩)
  settings id := (h.settings id).imp_right (·.imp_right
    fun ⟨n, rules, hs, hr⟩ => ⟨n, rules, hown hs, hr⟩)
  bound cg id hid := (h.bound cg id hid).imp_right fun hmem => hB hmem

theorem Sourced.populated (h : Sourced env wp own B m₀ m) (hp : Populated m id) :
    Populated m₀ id ∨ ∃ n, (n, id) ∈ own := by
  rcases hp with ⟨i, hi⟩ | hs
  · rcases h.strings id i with hk | hk | ⟨n, _, hown, _⟩
    · exact .inl (.inl ⟨i, hk ▸ hi⟩)
    · exact absurd hi (by simp [hk])
    · exact .inr ⟨n, hown⟩
  · rcases h.settings id with hk | hk | ⟨n, _, hown, _⟩
    · exact .inl (.inr (hk ▸ hs))
    · exact absurd hs (by simp [hk])
    · exact .inr ⟨n, hown⟩

theorem Moves.source (h₁ : Moves (Sourced env wp own B w.maps) w w₁)
    (h₂ : Moves (Sourced env wp own B w₁.maps) w₁ w₂) : Moves (Sourced env wp own B w.maps) w w₂ :=
  h₁.chain Sourced.refl (fun _ _ _ => Sourced.trans) h₂

theorem Thinning.sourced (h : Thinning D B m₀ m) : Sourced env wp own B m₀ m where
  strings id i := (h.strings id i).imp_right .inl
  settings id := (h.settings id).imp_right .inl
  bound := h.bound

theorem Rewrites.sourced (hn : wp.rulesByContainer.lookup n = some rules) (hown : (n, id) ∈ own)
    (h : Rewrites id (newClass env.toManagerEnv rules.allowed)
      (some (settingsOf wp.mode rules.allowForeignRootExec)) m₀ m) : Sourced env wp own B m₀ m where
  strings d i := by
    by_cases hd : d = id
    · subst hd
      exact (h.classes i).imp_right fun hc => .inr ⟨n, rules, hown, hn, hc⟩
    · exact .inl ((h.others d hd).strings i)
  settings d := by
    by_cases hd : d = id
    · subst hd
      exact h.settings.imp_right fun hc => .inr ⟨n, rules, hown, hn, hc.1⟩
    · exact .inl (h.others d hd).settings
  bound c d hd := .inl (h.cgToPolicy ▸ hd)

end

/-! ## Operations on pods -/

/-- The cgroups of the containers `M`, with the ids of their names. -/
def bindings (M : Set ContainerMeta) (pol : ContainerName → Option PolicyID) :
    Set (CgroupID × PolicyID) :=
  {x | ∃ c ∈ M, c.cgroupID = x.1 ∧ pol c.name = some x.2}

/-- The policies are as they were, and nothing under their ids has moved. -/
structure PodStep (B : Set (CgroupID × PolicyID)) (r r' : Resolver) : Prop where
  wpState : r'.wpState = r.wpState
  next : r'.nextPolicyID = r.nextPolicyID
  moves : Moves (Thinning ∅ B r.world.maps) r.world r'.world

section

variable {env : Env} {r r' : Resolver} {pod : PodEntry} {applied : PolicyByContainer} {w : World}
  {B : Set (CgroupID × PolicyID)} {D : Set PolicyID}

theorem applyPolicyToPod_thinning (hB : bindings pod.metas applied.lookup ⊆ B) :
    Ends (applyPolicyToPod env pod applied w)
      (fun _ w' => Moves (Thinning D B w.maps) w w')
      (fun _ w' => Moves (Thinning D B w.maps) w w') := by
  unfold applyPolicyToPod
  refine Ends.bind (ends_ok.mpr ?_)
  have hloop := Ends.forM (f := fun e : Entry ContainerID ContainerMeta =>
      applyToContainer env pod applied e.2) (E := fun _ w' => Moves (Thinning D B w.maps) w w')
    (fun rest w' => (∀ e ∈ rest, e.2 ∈ pod.metas) ∧ Moves (Thinning D B w.maps) w w')
    (fun e rest w₁ h₁ => ?step) (env.containers.range w.clock pod.containers) w
    ⟨fun e he => ⟨e.1, (env.containers.mem_range _).mp he⟩, Moves.refl _ _⟩
  case step =>
    obtain ⟨hall, h₁⟩ := h₁
    have hrest : ∀ e' ∈ rest, e'.2 ∈ pod.metas := fun e' he' => hall e' (List.mem_cons_of_mem e he')
    cases hid : applied.lookup e.2.name with
    | none =>
      unfold applyToContainer
      rw [hid]
      exact ends_ok.mpr ⟨hrest, h₁⟩
    | some id =>
      refine (applyToContainer_ends hid).mono ?_ ?_
      · rintro _ w₂ ⟨_, hruns, _⟩
        refine ⟨hrest, h₁.thin (hruns.moves.mono fun m hm => hm.thinning (hB ?_))⟩
        exact ⟨e.2, hall e (by simp), rfl, hid⟩
      · rintro _ w₂ ⟨hf, _⟩
        exact h₁.thin (hf.moves.mono fun m hm => hm.elim)
  exact hloop.mono (fun _ _ h => h.2) (fun _ _ h => h)

theorem addContainer_podStep {input : PodInput} {cached : Bool} {st : PodEntry}
    {e : Entry ContainerID ContainerInput} (h : PodStep B r r') :
    Ends (addContainer env input cached st e r') (fun _ r'' => PodStep B r r'')
      (fun _ r'' => PodStep B r r'') := by
  refine addContainer_cases.mono ?_ ?_
  · rintro _ r'' (⟨-, -, rfl⟩ | ⟨-, -, -, w, hw, rfl⟩)
    · exact h
    · exact ⟨h.wpState, h.next, h.moves.thin (hw.mono fun m hm => hm.thinning)⟩
  · rintro _ r'' (⟨_, -, -, rfl⟩ | ⟨-, -, -, w, hw, rfl⟩)
    · exact h
    · exact ⟨h.wpState, h.next, h.moves.thin (hw.mono fun m hm => hm.thinning)⟩

/-- The entry a report of a pod is about: its data are those of the first report. -/
def Resolver.entryOf (r : Resolver) (pod : PodInput) : PodEntry :=
  (r.podCache.lookup pod.podMeta.id).getD (convertPodData pod)

theorem addPodContainerFromNri_podStep {input : PodInput} :
    Ends (addPodContainerFromNri env input r)
      (fun _ r' => PodStep (bindings (podMetas r input)
        (r.pol (r.entryOf input).podMeta.policyKey)) r r')
      (fun _ r' => PodStep (bindings (podMetas r input)
        (r.pol (r.entryOf input).podMeta.policyKey)) r r') := by
  unfold addPodContainerFromNri
  refine Ends.bind (ends_ok.mpr ?_)
  have hk := starts_getD r input
  have hloop := Ends.foldlM
    (f := addContainer env input (r.podCache.lookup input.podMeta.id).isSome)
    (fun _ _ r' => PodStep (bindings (podMetas r input)
        (r.pol (r.entryOf input).podMeta.policyKey)) r r')
    (fun e _ st r₁ h₁ => addContainer_podStep h₁)
    (env.inputs.range r.world.clock input.containers) (r.entryOf input) r
    ⟨rfl, rfl, Moves.refl _ _⟩
  refine Ends.bind ((hloop.and (addContainers_ends hk)).mono ?_ (fun _ _ h => h.1))
  rintro st r₁ ⟨h₁, hadd⟩
  refine Ends.bind (ends_ok.mpr (Ends.bind (ends_ok.mpr (Ends.zoom ?_))))
  have hst : st.podMeta = (r.entryOf input).podMeta := hadd.podMeta
  unfold applyPolicyToPodIfPresent
  split
  · exact ends_ok.mpr ⟨h₁.wpState, h₁.next, h₁.moves⟩
  · cases hinfo : r₁.wpState.lookup st.podMeta.policyKey with
    | none => exact ends_error.mpr ⟨h₁.wpState, h₁.next, h₁.moves⟩
    | some info =>
      dsimp only
      have hB : bindings st.metas info.polByContainer.lookup ⊆
          bindings (podMetas r input) (r.pol (r.entryOf input).podMeta.policyKey) := by
        rintro ⟨cg, id⟩ ⟨c, hc, hcg, hid⟩
        refine ⟨c, hadd.metas_sub hk hc, hcg, ?_⟩
        rw [← hst, Resolver.pol, ← h₁.wpState, hinfo]
        exact hid
      exact (applyPolicyToPod_thinning hB).mono
        (fun _ w hw => ⟨h₁.wpState, h₁.next, h₁.moves.thin hw⟩)
        (fun _ w hw => ⟨h₁.wpState, h₁.next, h₁.moves.thin hw⟩)

theorem removePodContainerFromNri_podStep {podID : PodID} {cid : ContainerID} :
    Ends (removePodContainerFromNri env podID cid r) (fun _ r' => PodStep B r r')
      (fun _ r' => PodStep B r r') := by
  have hrefl : PodStep B r r := ⟨rfl, rfl, Moves.refl _ _⟩
  unfold removePodContainerFromNri
  refine Ends.bind (ends_ok.mpr ?_)
  cases r.podCache.lookup podID with
  | none => exact ends_ok.mpr hrefl
  | some state =>
    cases hc : state.containers.lookup cid with
    | none =>
      simp only [hc]
      exact ends_ok.mpr hrefl
    | some container =>
      simp only [hc]
      refine Ends.bind
        (ends_ok.mpr (Ends.zoom ((call_ends (handled_ends removeCgroups_ends)).mono ?_ ?_)))
      · rintro _ w ⟨hr, _⟩
        refine ⟨rfl, rfl, hr.moves.mono ?_⟩
        rintro m rfl
        exact thinning_unbindCgroup
      · rintro _ w ⟨hf, _⟩
        exact ⟨rfl, rfl, hf.moves.mono fun _ h => h.elim⟩

end

/-! ## Deleting a policy -/

theorem deleteContainers_thinning {env : Env} {key : NamespacedPolicyName}
    {pol : PolicyByContainer} {w : World} :
    Ends (deleteContainers env key pol w) (fun _ w' => Moves (Thinning pol.ids ∅ w.maps) w w')
      (fun _ w' => Moves (Thinning pol.ids ∅ w.maps) w w') := by
  unfold deleteContainers
  refine Ends.bind (ends_ok.mpr ?_)
  have hloop := Ends.forM (f := deleteContainer env key)
    (E := fun _ w' => Moves (Thinning pol.ids ∅ w.maps) w w')
    (fun rest w' =>
      (∀ e ∈ rest, pol.lookup e.1 = some e.2) ∧ Moves (Thinning pol.ids ∅ w.maps) w w')
    (fun e rest w₁ h₁ => ?step) (env.policies.range w.clock pol) w
    ⟨fun e he => (env.policies.mem_range _).mp he, Moves.refl _ _⟩
  case step =>
    obtain ⟨hall, h₁⟩ := h₁
    have hmem : e.2 ∈ pol.ids := ⟨e.1, hall e (by simp)⟩
    have hrest : ∀ e' ∈ rest, pol.lookup e'.1 = some e'.2 := fun e' he' =>
      hall e' (List.mem_cons_of_mem e he')
    unfold deleteContainer
    refine Ends.bind ((call_ends (handled_ends removePolicyFromCgroups_ends)).mono ?_ ?_)
    · rintro _ w₂ ⟨hr, _⟩
      have h₂ := h₁.thin (hr.moves.mono fun m hm => hm.thinning)
      refine (call_ends clearPolicyIDFromBPF_ends).mono ?_ ?_
      · intro _ w₃ hw₃
        exact ⟨hrest, h₂.thin (hw₃.runs.moves.mono fun m hm => hm.thinning hmem)⟩
      · rintro _ w₃ ⟨⟨hf, _⟩, _⟩
        exact h₂.thin (hf.moves.mono fun m hm => hm.thinning hmem)
    · rintro _ w₂ ⟨hf, _⟩
      exact h₁.thin (hf.moves.mono fun m hm => hm.thinning)
  exact hloop.mono (fun _ _ h => h.2) (fun _ _ h => h)

/-- The policy's entry is gone first, and then what is under its ids. -/
structure DeleteStep (key : NamespacedPolicyName) (r r' : Resolver) : Prop where
  podCache : r'.podCache = r.podCache
  wpState : ∀ k, r'.wpState.lookup k = if k = key then none else r.wpState.lookup k
  next : r'.nextPolicyID = r.nextPolicyID
  moves : Moves (Thinning {id | ∃ n, r.pol key n = some id} ∅ r.world.maps) r.world r'.world

theorem handleWPDelete_deleteStep {env : Env} {o : ObjectMeta} {r : Resolver} :
    Ends (handleWPDelete env o r) (fun _ r' => DeleteStep o.namespacedName r r')
      (fun _ r' => DeleteStep o.namespacedName r r') := by
  unfold handleWPDelete
  refine Ends.bind (ends_ok.mpr ?_)
  cases hinfo : r.wpState.lookup o.namespacedName with
  | none =>
    refine ends_ok.mpr ⟨rfl, fun k => ?_, rfl, Moves.refl _ _⟩
    split
    · next hk => rw [hk, hinfo]
    · rfl
  | some info =>
    have hids : info.polByContainer.ids = {id | ∃ n, r.pol o.namespacedName n = some id} := by
      ext id
      exact Resolver.mem_ids hinfo
    refine Ends.bind (ends_ok.mpr (Ends.zoom ?_))
    refine (deleteContainers_thinning (w := r.world)).mono ?_ ?_
    · exact fun _ w hw => ⟨rfl, fun k => GoMap.lookup_erase_eq, rfl, hids ▸ hw⟩
    · exact fun _ w hw => ⟨rfl, fun k => GoMap.lookup_erase_eq, rfl, hids ▸ hw⟩

/-! ## The ids a reconcile gives out -/

variable {id : PolicyID}

/-- The id given out for a name, if it has none. -/
def PolicyScope.grant (s : PolicyScope) (n : ContainerName) : List (ContainerName × PolicyID) :=
  if s.polByContainer.lookup n = none then [(n, s.nextPolicyID)] else []

/-- The calls of `allocPolicyID` in the loop of `syncWorkloadPolicy`. -/
def syncLog (env : Env) (wp : WorkloadPolicy) :
    List (Entry ContainerName WorkloadPolicyRules) → PolicyByContainer → PolicyScope →
      List (ContainerName × PolicyID)
  | [], _, _ => []
  | e :: es, new, s =>
    s.grant e.1 ++
      match syncContainer env wp new e s with
      | .ok new' s' => syncLog env wp es new' s'
      | .error _ _ => []

/-- The calls of `allocPolicyID` in `ReconcileWP`. -/
def WorkloadPolicy.grants (env : Env) (wp : WorkloadPolicy) (s : PolicyScope) :
    List (ContainerName × PolicyID) :=
  syncLog env wp (env.rules.range s.world.clock wp.rulesByContainer) ∅ s

/-- The ids of each name of the policy: the one it had, or was given. -/
def PolicyScope.owned (s₀ : PolicyScope) (log : List (ContainerName × PolicyID)) :
    Set (ContainerName × PolicyID) :=
  {x | s₀.polByContainer.lookup x.1 = some x.2 ∨ x ∈ log}

/-- The loop has gone from `s₀` to `s`, giving out `log`. -/
structure Logged (env : Env) (wp : WorkloadPolicy) (s₀ : PolicyScope)
    (log : List (ContainerName × PolicyID)) (s : PolicyScope) : Prop where
  pol : s.polByContainer = s₀.polByContainer
  ids : log.map Prod.snd = List.range' s₀.nextPolicyID log.length
  next : s.nextPolicyID = s₀.nextPolicyID + log.length
  names : ∀ x ∈ log, wp.names x.1 = true ∧ s₀.polByContainer.lookup x.1 = none
  moves : Moves (Sourced env wp (s₀.owned log) ∅ s₀.world.maps) s₀.world s.world

section

variable {env : Env} {wp : WorkloadPolicy} {s₀ s s₁ s₂ : PolicyScope}
  {log log₁ log₂ : List (ContainerName × PolicyID)} {new : PolicyByContainer}

theorem Logged.trans (h₁ : Logged env wp s log₁ s₁) (h₂ : Logged env wp s₁ log₂ s₂) :
    Logged env wp s (log₁ ++ log₂) s₂ where
  pol := h₂.pol.trans h₁.pol
  ids := by
    rw [List.map_append, h₁.ids, h₂.ids, h₁.next, List.length_append, List.range'_append_1]
  next := by rw [h₂.next, h₁.next, List.length_append, Nat.add_assoc]
  names := by
    intro x hx
    rcases List.mem_append.mp hx with hx | hx
    · exact h₁.names x hx
    · exact h₁.pol ▸ h₂.names x hx
  moves := by
    refine Moves.source (h₁.moves.mono fun m hm => hm.mono ?_ (fun _ h => h))
      (h₂.moves.mono fun m hm => hm.mono ?_ (fun _ h => h))
    · exact fun x hx => hx.imp_right (List.mem_append_left _)
    · intro x hx
      unfold PolicyScope.owned at hx
      rw [h₁.pol] at hx
      exact hx.imp_right (List.mem_append_right _)

theorem Logged.lt_next (h : Logged env wp s₀ log s) (hmem : (n, id) ∈ log) :
    s₀.nextPolicyID ≤ id ∧ id < s.nextPolicyID := by
  have hid : id ∈ log.map Prod.snd := List.mem_map.mpr ⟨(n, id), hmem, rfl⟩
  rw [h.ids, List.mem_range'_1] at hid
  rw [h.next]
  exact hid

theorem Logged.fresh (h : Logged env wp s₀ log s)
    (hlt : ∀ n id, s₀.polByContainer.lookup n = some id → id < s₀.nextPolicyID)
    (hfresh : ∀ id, s₀.nextPolicyID ≤ id → ∀ i, s₀.world.maps.polStrMaps i id = none)
    (id : PolicyID) (hid : s.nextPolicyID ≤ id) (i : MapIndex) :
    s.world.maps.polStrMaps i id = none := by
  have hle : s₀.nextPolicyID ≤ id := Nat.le_trans (h.next ▸ Nat.le_add_right _ _) hid
  rcases (h.moves.maps (Sourced.refl _)).strings id i with hs | hs | ⟨n, _, hsrc, _⟩
  · exact hs.trans (hfresh id hle i)
  · exact hs
  · rcases hsrc with hsrc | hsrc
    · exact absurd (hlt n id hsrc) (Nat.not_lt.mpr hle)
    · exact absurd (h.lt_next hsrc).2 (Nat.not_lt.mpr hid)

theorem syncContainer_logged (hfresh : ∀ i, s.world.maps.polStrMaps i s.nextPolicyID = none)
    (hn : wp.rulesByContainer.lookup n = some rules) :
    Ends (syncContainer env wp new ⟨n, rules⟩ s)
      (fun new' s' => Logged env wp s (s.grant n) s' ∧
        new' = (s.grant n).foldl (fun m x => m.insert x.1 x.2) new)
      (fun _ s' => Logged env wp s (s.grant n) s') := by
  unfold syncContainer PolicyScope.grant
  refine Ends.bind (ends_ok.mpr ?_)
  cases hpol : s.polByContainer.lookup n with
  | some id =>
    have hsrc : ∀ m, Rewrites id (newClass env.toManagerEnv rules.allowed)
        (some (settingsOf wp.mode rules.allowForeignRootExec)) s.world.maps m →
        Sourced env wp (s.owned []) ∅ s.world.maps m :=
      fun m hm => hm.sourced hn (.inl hpol)
    simp only [reduceCtorEq, if_false]
    refine Ends.bind (Ends.zoom ((call_ends (upsertPolicyIDInBPF_ends (.inl rfl))).mono ?_ ?_))
    · rintro _ w' ⟨hw, _⟩
      exact ends_ok.mpr ⟨⟨rfl, rfl, rfl, by simp, hw.runs.moves.mono hsrc⟩, rfl⟩
    · rintro _ w' ⟨⟨hf, _⟩, _⟩
      exact ⟨rfl, rfl, rfl, by simp, hf.moves.mono hsrc⟩
  | none =>
    have hsrc : ∀ m, Rewrites s.nextPolicyID (newClass env.toManagerEnv rules.allowed)
        (some (settingsOf wp.mode rules.allowForeignRootExec)) s.world.maps m →
        Sourced env wp (s.owned [(n, s.nextPolicyID)]) ∅ s.world.maps m :=
      fun m hm => hm.sourced hn (.inr (by simp))
    have hnames : ∀ x ∈ [(n, s.nextPolicyID)],
        wp.names x.1 = true ∧ s.polByContainer.lookup x.1 = none := by
      intro x hx
      rw [List.mem_singleton.mp hx]
      exact ⟨WorkloadPolicy.names_of_lookup hn, hpol⟩
    simp only [if_true]
    refine Ends.bind (ends_ok.mpr (Ends.bind (Ends.zoom
      ((call_ends (upsertPolicyIDInBPF_ends (.inr ⟨rfl, hfresh⟩))).mono ?_ ?_))))
    · rintro _ w' ⟨hw, _⟩
      exact ends_ok.mpr ⟨⟨rfl, rfl, rfl, hnames, hw.runs.moves.mono hsrc⟩, rfl⟩
    · rintro _ w' ⟨⟨hf, _⟩, _⟩
      exact ⟨rfl, rfl, rfl, hnames, hf.moves.mono hsrc⟩

theorem syncContainers_logged (es : List (Entry ContainerName WorkloadPolicyRules))
    (hes : ∀ e ∈ es, wp.rulesByContainer.lookup e.1 = some e.2)
    (hlt : ∀ n id, s.polByContainer.lookup n = some id → id < s.nextPolicyID)
    (hfresh : ∀ id, s.nextPolicyID ≤ id → ∀ i, s.world.maps.polStrMaps i id = none) :
    Ends (es.foldlM (syncContainer env wp) new s)
      (fun new' s' => Logged env wp s (syncLog env wp es new s) s' ∧
        new' = (syncLog env wp es new s).foldl (fun m x => m.insert x.1 x.2) new)
      (fun _ s' => Logged env wp s (syncLog env wp es new s) s') := by
  induction es generalizing new s with
  | nil => exact ⟨⟨rfl, rfl, rfl, by simp [syncLog], Moves.refl _ _⟩, rfl⟩
  | cons e es ih =>
    rw [List.foldlM_cons]
    have hone : Ends (syncContainer env wp new e s) _ _ :=
      (syncContainer_logged (hfresh _ (Nat.le_refl _)) (hes e (by simp))).and (Ends.self _)
    refine Ends.bind (hone.mono ?_ ?_)
    · rintro new₁ s₁ ⟨⟨h₁, hnew₁⟩, hok⟩
      have hlog : syncLog env wp (e :: es) new s = s.grant e.1 ++ syncLog env wp es new₁ s₁ := by
        rw [syncLog, show syncContainer env wp new e s = .ok new₁ s₁ from hok]
      rw [hlog]
      refine (ih (fun e' he' => hes e' (by simp [he'])) (fun n id hid => ?_)
        (h₁.fresh hlt hfresh)).mono ?_ (fun _ s₂ h₂ => h₁.trans h₂)
      · rw [h₁.pol] at hid
        exact Nat.lt_of_lt_of_le (hlt n id hid) (h₁.next ▸ Nat.le_add_right _ _)
      · rintro new₂ s₂ ⟨h₂, hnew₂⟩
        refine ⟨h₁.trans h₂, ?_⟩
        rw [List.foldl_append, ← hnew₁]
        exact hnew₂
    · rintro err s₁ ⟨h₁, herr⟩
      rw [syncLog, show syncContainer env wp new e s = .error err s₁ from herr, List.append_nil]
      exact h₁

theorem syncLog_names_sublist (es : List (Entry ContainerName WorkloadPolicyRules)) :
    ((syncLog env wp es new s).map Prod.fst).Sublist (es.map Sigma.fst) := by
  induction es generalizing new s with
  | nil => exact List.Sublist.refl _
  | cons e es ih =>
    have hhead : ((s.grant e.1).map Prod.fst).Sublist [e.1] := by
      unfold PolicyScope.grant
      split
      · exact List.Sublist.refl _
      · exact List.nil_sublist _
    rw [syncLog, List.map_append]
    refine List.Sublist.append (show _ from hhead) ?_
    split
    · exact ih
    · exact List.nil_sublist _

theorem lookup_foldl_insert {log : List (ContainerName × PolicyID)}
    (hnd : (log.map Prod.fst).Nodup) :
    (log.foldl (fun (m : PolicyByContainer) x => m.insert x.1 x.2) new).lookup n = some id ↔
      (n, id) ∈ log ∨ n ∉ log.map Prod.fst ∧ new.lookup n = some id := by
  induction log generalizing new with
  | nil => simp
  | cons x log ih =>
    obtain ⟨hx, hnd⟩ := List.nodup_cons.mp hnd
    rw [List.foldl_cons, ih hnd, GoMap.lookup_insert_eq]
    obtain ⟨xn, xid⟩ := x
    by_cases hn : n = xn
    · subst hn
      have hnot : ∀ d, (n, d) ∉ log := fun d hd => hx (List.mem_map.mpr ⟨(n, d), hd, rfl⟩)
      simp [hnot, eq_comm]
    · simp [hn]

theorem syncWorkloadPolicy_logged (ha : Allocated s) :
    Ends (syncWorkloadPolicy env wp s)
      (fun new s' => Logged env wp s (wp.grants env s) s' ∧
        ∀ n id, new.lookup n = some id ↔ (n, id) ∈ wp.grants env s)
      (fun _ s' => Logged env wp s (wp.grants env s) s') := by
  unfold syncWorkloadPolicy
  refine Ends.bind (ends_ok.mpr ?_)
  refine (syncContainers_logged _ (fun e he => (env.rules.mem_range _).mp he) ha.lt
    ha.fresh).mono ?_ (fun _ _ h => h)
  rintro new s' ⟨h, hnew⟩
  refine ⟨h, fun n id => ?_⟩
  have hnd : ((wp.grants env s).map Prod.fst).Nodup :=
    (env.rules.nodup_range _ _).sublist (syncLog_names_sublist _)
  unfold WorkloadPolicy.grants at hnd ⊢
  rw [hnew, lookup_foldl_insert hnd]
  simp

end

/-! ## The ids a reconcile takes back -/

/-- The second loop has gone from `s₁` to `s`; `removed` are the names the spec no longer has. A
name keeps its id, or the id has nothing left under it. -/
structure Thinned (removed : PolicyByContainer) (B : Set (CgroupID × PolicyID))
    (s₁ s : PolicyScope) : Prop where
  next : s.nextPolicyID = s₁.nextPolicyID
  moves : Moves (Thinning removed.ids B s₁.world.maps) s₁.world s.world
  pol : ∀ n, s.polByContainer.lookup n = s₁.polByContainer.lookup n ∨
    s.polByContainer.lookup n = none ∧ ∃ id, removed.lookup n = some id ∧
      ¬ Populated s.world.maps id
  settings : ∀ id, s.world.maps.policySettings id = s₁.world.maps.policySettings id ∨
    ∃ n, removed.lookup n = some id ∧ s.polByContainer.lookup n = none

section

variable {env : Env} {wp : WorkloadPolicy} {removed applied : PolicyByContainer}
  {s₁ s s' : PolicyScope} {key : NamespacedPolicyName} {pod : PodEntry}
  {B : Set (CgroupID × PolicyID)}

theorem Thinned.refl : Thinned removed B s₁ s₁ :=
  ⟨rfl, Moves.refl _ _, fun _ => .inl rfl, fun _ => .inl rfl⟩

theorem Thinned.keep (h : Thinned removed B s₁ s) (hnext : s'.nextPolicyID = s.nextPolicyID)
    (hpol : s'.polByContainer = s.polByContainer)
    (hset : s'.world.maps.policySettings = s.world.maps.policySettings)
    (hm : Moves (Thinning removed.ids B s.world.maps) s.world s'.world) :
    Thinned removed B s₁ s' where
  next := hnext.trans h.next
  moves := h.moves.thin hm
  pol n := by
    rw [hpol]
    refine (h.pol n).imp_right fun ⟨hnone, id, hid, hclear⟩ => ⟨hnone, id, hid, fun hp => ?_⟩
    exact hclear ((hm.maps (Thinning.refl _)).populated hp)
  settings id := by
    rw [hset, hpol]
    exact h.settings id

theorem Thinned.drop (h : Thinned removed B s₁ s) {c : ContainerMeta}
    (hid : removed.lookup c.name = some id) (hnext : s'.nextPolicyID = s.nextPolicyID)
    (hpol : s'.polByContainer = s.polByContainer.erase c.name)
    (hm : Moves (Dropping c.cgroupID id s.world.maps) s.world s'.world)
    (hd : Dropped c.cgroupID id s.world.maps s'.world.maps) : Thinned removed B s₁ s' where
  next := hnext.trans h.next
  moves := h.moves.thin (hm.mono fun m hm => hm.thinning ⟨c.name, hid⟩)
  pol n := by
    rw [hpol, GoMap.lookup_erase_eq]
    split
    · next hn =>
      refine .inr ⟨rfl, id, hn ▸ hid, ?_⟩
      rintro (⟨i, hi⟩ | hs)
      · exact absurd hi (by simp [hd.stringsGone i])
      · exact absurd hs (by simp [hd.settingsGone])
    · refine (h.pol n).imp_right fun ⟨hnone, d, hd', hclear⟩ => ⟨hnone, d, hd', fun hp => ?_⟩
      exact hclear ((hd.toDropping.thinning (Set.mem_singleton id)).populated (B := ∅) hp)
  settings d := by
    by_cases hdid : d = id
    · refine .inr ⟨c.name, hdid ▸ hid, ?_⟩
      rw [hpol, GoMap.lookup_erase_eq, if_pos rfl]
    · rw [(hd.others d hdid).settings]
      refine (h.settings d).imp_right fun ⟨n, hn, hnone⟩ => ⟨n, hn, ?_⟩
      rw [hpol, GoMap.lookup_erase_eq]
      split
      · rfl
      · exact hnone

theorem removePolicyFromPod_thinned (h : Thinned removed B s₁ s) :
    Ends (removePolicyFromPod env key pod removed s) (fun _ s' => Thinned removed B s₁ s')
      (fun _ s' => Thinned removed B s₁ s') := by
  unfold removePolicyFromPod
  refine Ends.bind (ends_ok.mpr ?_)
  refine Ends.forM (fun _ s' => Thinned removed B s₁ s') (fun e _ s₂ h₂ => ?_) _ _ h
  cases hid : removed.lookup e.2.name with
  | none =>
    unfold removeFromContainer
    rw [hid]
    exact ends_ok.mpr h₂
  | some id =>
    refine (removeFromContainer_ends hid).mono ?_ ?_
    · rintro _ s₃ ⟨hnext, hpol, hruns, hdrop, _⟩
      exact h₂.drop hid hnext hpol hruns.moves hdrop
    · rintro _ s₃ ⟨_, hnext, hpol, hf, hset⟩
      exact h₂.keep hnext hpol hset (hf.moves.mono fun m hm => hm.thinning ⟨e.2.name, hid⟩)

theorem reconcilePods_thinned {podCache : GoMap PodID PodEntry}
    (hB : bindings (matched podCache wp.namespacedName) applied.lookup ⊆ B) :
    Ends (reconcilePods env wp podCache applied removed s₁) (fun _ s => Thinned removed B s₁ s)
      (fun _ s => Thinned removed B s₁ s) := by
  unfold reconcilePods
  refine Ends.bind (ends_ok.mpr ?_)
  have hloop := Ends.forM
    (f := fun e : Entry PodID PodEntry => reconcilePod env wp applied removed e.2)
    (E := fun _ s => Thinned removed B s₁ s)
    (fun rest s => (∀ e ∈ rest, podCache.lookup e.1 = some e.2) ∧ Thinned removed B s₁ s)
    (fun e rest s h => ?step) (env.pods.range s₁.world.clock podCache) s₁
    ⟨fun e he => (env.pods.mem_range _).mp he, Thinned.refl⟩
  case step =>
    obtain ⟨hall, h⟩ := h
    have hrest : ∀ e' ∈ rest, podCache.lookup e'.1 = some e'.2 := fun e' he' =>
      hall e' (List.mem_cons_of_mem e he')
    unfold reconcilePod
    split
    · next hmatch =>
      refine Ends.bind ((removePolicyFromPod_thinned h).mono (fun _ s₂ h₂ => ?_) (fun _ _ h => h))
      have hpod : bindings e.2.metas applied.lookup ⊆ B := by
        rintro x ⟨c, ⟨cid, hc⟩, hx⟩
        refine hB ⟨c, ⟨e.1, e.2, hall e (by simp), ?_, cid, hc⟩, hx⟩
        exact PodEntry.matchPolicy_iff.mp hmatch
      have hkeep : ∀ w, Moves (Thinning ∅ B s₂.world.maps) s₂.world w →
          Thinned removed B s₁ (s₂.setWorld w) := by
        intro w hw
        refine h₂.keep rfl rfl ?_ (hw.mono fun m hm => hm.mono (by simp) fun _ h => h)
        exact funext fun id => ((hw.maps (Thinning.refl _)).kept id (by simp)).settings
      exact Ends.zoom ((applyPolicyToPod_thinning hpod).mono (fun _ w hw => ⟨hrest, hkeep w hw⟩)
        (fun _ w hw => hkeep w hw))
    · exact ends_ok.mpr ⟨hrest, h⟩
  exact hloop.mono (fun _ _ h => h.2) (fun _ _ h => h)

end

/-! ## A reconcile -/

variable {B : Set (CgroupID × PolicyID)}

/-- What a reconcile that gave out `log` leaves behind, whether it returned or failed; `M` are the
containers of the pods that name the policy. An id that the policy has lost has nothing left under
it. -/
structure Renumbers (env : Env) (wp : WorkloadPolicy) (M : Set ContainerMeta) (s₀ : PolicyScope)
    (log : List (ContainerName × PolicyID)) (s : PolicyScope) : Prop where
  ids : log.map Prod.snd = List.range' s₀.nextPolicyID log.length
  names : ∀ x ∈ log, wp.names x.1 = true ∧ s₀.polByContainer.lookup x.1 = none
  next : s.nextPolicyID = s₀.nextPolicyID + log.length
  polFrom : ∀ n id, s.polByContainer.lookup n = some id → (n, id) ∈ s₀.owned log
  polInj : ∀ n n' id, s.polByContainer.lookup n = some id → s.polByContainer.lookup n' = some id →
    n = n'
  settings : ∀ n id, s.polByContainer.lookup n = some id →
    (s.world.maps.policySettings id).isSome
  lost : ∀ n id, s₀.polByContainer.lookup n = some id → s.polByContainer.lookup n = some id ∨
    ¬ Populated s.world.maps id
  kept : ∀ id, id < s₀.nextPolicyID → (∀ n, s₀.polByContainer.lookup n ≠ some id) →
    SameId id s₀.world.maps s.world.maps
  moves : Moves (Sourced env wp (s₀.owned log)
    {x | ∃ c ∈ M, c.cgroupID = x.1 ∧ (c.name, x.2) ∈ s₀.owned log} s₀.world.maps) s₀.world s.world

section

variable {env : Env} {wp : WorkloadPolicy} {M : Set ContainerMeta} {s₀ s₁ s : PolicyScope}
  {log : List (ContainerName × PolicyID)} {new : PolicyByContainer}

theorem Renumbers.own (ha : Allocated s₀) (h : Renumbers env wp M s₀ log s) : OwnStep s₀ s where
  next := h.next ▸ Nat.le_add_right _ _
  polFrom n id hid := by
    refine (h.polFrom n id hid).imp_right fun hmem => ?_
    have hid : id ∈ log.map Prod.snd := List.mem_map.mpr ⟨(n, id), hmem, rfl⟩
    rw [h.ids, List.mem_range'_1] at hid
    exact h.next ▸ hid
  polInj := h.polInj
  settings := h.settings
  kept := h.kept
  fresh id hid i := by
    have hle : s₀.nextPolicyID ≤ id := Nat.le_trans (h.next ▸ Nat.le_add_right _ _) hid
    rcases (h.moves.maps (Sourced.refl _)).strings id i with hs | hs | ⟨n, _, hown, _⟩
    · exact hs.trans (ha.fresh id hle i)
    · exact hs
    · rcases hown with hold | hmem
      · exact absurd (ha.lt n id hold) (Nat.not_lt.mpr hle)
      · have hid' : id ∈ log.map Prod.snd := List.mem_map.mpr ⟨(n, id), hmem, rfl⟩
        rw [h.ids, List.mem_range'_1, ← h.next] at hid'
        exact absurd hid'.2 (Nat.not_lt.mpr hid)

theorem SyncFails.renumbers (ha : Allocated s₀) {e : ResolverErr} (h : SyncFails env wp s₀ e s)
    (hl : Logged env wp s₀ log s) : Renumbers env wp M s₀ log s where
  ids := hl.ids
  names := hl.names
  next := hl.next
  polFrom n id hid := .inl (h.pol ▸ hid)
  polInj := by
    rw [h.pol]
    exact ha.inj
  settings n id hid := by
    rw [h.pol] at hid
    exact h.settingsKept id (ha.lt n id hid) (ha.settings n id hid)
  lost n id hid := .inl (by rw [h.pol, hid])
  kept id hlt hnot := h.syncing.kept id hlt fun n hid => absurd hid (hnot n)
  moves := hl.moves.mono fun m hm => hm.mono (fun _ hx => hx) (by simp)

/-- What is recorded between the loops. -/
theorem SyncInv.recorded_iff (h : SyncInv env wp s₀ {n | wp.names n = true} new s₁)
    (hnew : ∀ n id, new.lookup n = some id ↔ (n, id) ∈ log) (hl : Logged env wp s₀ log s₁) :
    (s₁.record new).polByContainer.lookup n = some id ↔ (n, id) ∈ s₀.owned log := by
  rw [PolicyScope.lookup_record h]
  unfold PolicyScope.owned
  simp only [Set.mem_ofPred_eq, ← hnew]
  cases hn : new.lookup n with
  | none => simp
  | some d =>
    have hnone : s₀.polByContainer.lookup n = none := (hl.names (n, d) ((hnew n d).mp hn)).2
    simp [hnone]

theorem SyncInv.renumbers (ha : Allocated s₀)
    (h : SyncInv env wp s₀ {n | wp.names n = true} new s₁)
    (hnew : ∀ n id, new.lookup n = some id ↔ (n, id) ∈ log) (hl : Logged env wp s₀ log s₁)
    (ht : Thinned ((s₁.record new).removed wp)
      (bindings M ((s₁.record new).applied wp).lookup) (s₁.record new) s) :
    Renumbers env wp M s₀ log s := by
  have hsub : ∀ n id, s.polByContainer.lookup n = some id →
      (s₁.record new).polByContainer.lookup n = some id := by
    intro n id hid
    rcases ht.pol n with hk | ⟨hk, _⟩
    · exact hk.symm.trans hid
    · exact absurd hid (by simp [hk])
  have hinj : ∀ n n' id, (s₁.record new).polByContainer.lookup n = some id →
      (s₁.record new).polByContainer.lookup n' = some id → n = n' := fun _ _ _ => h.recorded_inj ha
  constructor
  case ids => exact hl.ids
  case names => exact hl.names
  case next => exact ht.next.trans hl.next
  case polFrom => exact fun n id hid => (h.recorded_iff hnew hl).mp (hsub n id hid)
  case polInj => exact fun n n' id hid hid' => hinj n n' id (hsub n id hid) (hsub n' id hid')
  case settings =>
    intro n id hid
    rcases ht.settings id with hs | ⟨n', hrem, hnone⟩
    · have hset := h.recorded_settings ha (hsub n id hid)
      rw [hs]
      exact hset
    · -- the name the id was taken from is this one
      obtain rfl := hinj n n' id (hsub n id hid)
        (h.recorded_keeps (h.lookup_removed_iff.mp hrem).2)
      exact absurd hid (by simp [hnone])
  case lost =>
    intro n id hid
    have hrec := h.recorded_keeps hid
    rcases ht.pol n with hk | ⟨_, id', hid', hclear⟩
    · exact .inl (hk.trans hrec)
    · obtain rfl : id' = id :=
        Option.some.inj ((h.lookup_removed_iff.mp hid').2.symm.trans hid)
      exact .inr hclear
  case kept =>
    intro id hlt hnot
    refine (h.synced.kept id hlt fun n _ => hnot n).trans
      ((ht.moves.maps (Thinning.refl _)).kept id ?_)
    rintro ⟨n, hn⟩
    exact hnot n (h.lookup_removed_iff.mp hn).2
  case moves =>
    refine Moves.source (hl.moves.mono fun m hm => hm.mono (fun _ hx => hx) (by simp))
      (ht.moves.mono fun m hm => hm.sourced.mono (fun _ hx => hx) ?_)
    rintro ⟨cg, id⟩ ⟨c, hc, hcg, hid⟩
    exact ⟨c, hc, hcg, (h.recorded_iff hnew hl).mp (SyncInv.lookup_applied_iff.mp hid).2⟩

theorem SyncInv.carries_thinned (ha : Allocated s₀)
    (h : SyncInv env wp s₀ {n | wp.names n = true} new s₁)
    (ht : Thinned ((s₁.record new).removed wp) B (s₁.record new) s)
    (hr : wp.rulesByContainer.lookup n = some rules) :
    ∃ id, s.polByContainer.lookup n = some id ∧ Carries env wp rules s.world.maps id := by
  have hn := WorkloadPolicy.names_of_lookup hr
  obtain ⟨id, hid, hc⟩ := h.recorded_carries hr
  have hpol : s.polByContainer.lookup n = some id := by
    rcases ht.pol n with hk | ⟨_, id', hid', _⟩
    · exact hk.trans hid
    · exact absurd (h.lookup_removed_iff.mp hid').1 (by simp [hn])
  refine ⟨id, hpol, ?_⟩
  have hs : SameId id s₁.world.maps s.world.maps := by
    refine (ht.moves.maps (Thinning.refl _)).kept id ?_
    rintro ⟨n', hn'⟩
    obtain ⟨hnot, hold⟩ := h.lookup_removed_iff.mp hn'
    obtain rfl := h.recorded_inj ha hid (h.recorded_keeps hold)
    exact absurd hn (by simp [hnot])
  exact ⟨fun i => (hs.strings i).trans (hc.strings i), hc.valid, hs.settings.trans hc.settings⟩

/-- The rules of the spec are written, and the ids given out for them are recorded. -/
structure Written (env : Env) (wp : WorkloadPolicy) (log : List (ContainerName × PolicyID))
    (s : PolicyScope) : Prop where
  recorded : ∀ x ∈ log, s.polByContainer.lookup x.1 = some x.2
  carries : ∀ n rules, wp.rulesByContainer.lookup n = some rules →
    ∃ id, s.polByContainer.lookup n = some id ∧ Carries env wp rules s.world.maps id

theorem SyncInv.written (ha : Allocated s₀) (h : SyncInv env wp s₀ {n | wp.names n = true} new s₁)
    (hnew : ∀ n id, new.lookup n = some id ↔ (n, id) ∈ log) (hl : Logged env wp s₀ log s₁)
    (ht : Thinned ((s₁.record new).removed wp) B (s₁.record new) s) : Written env wp log s where
  recorded := by
    intro x hx
    have hrec := (h.recorded_iff hnew hl).mpr (.inr hx : (x.1, x.2) ∈ s₀.owned log)
    rcases ht.pol x.1 with hk | ⟨_, id', hid', _⟩
    · exact hk.trans hrec
    · exact absurd (h.lookup_removed_iff.mp hid').1 (by simp [(hl.names x hx).1])
  carries := fun _ _ hr => h.carries_thinned ha ht hr

theorem reconcileContainers_renumbers {podCache : GoMap PodID PodEntry} (ha : Allocated s₀) :
    Ends (reconcileContainers env wp podCache s₀)
      (fun _ s => Renumbers env wp (matched podCache wp.namespacedName) s₀ (wp.grants env s₀) s ∧
        Written env wp (wp.grants env s₀) s)
      (fun e s => Renumbers env wp (matched podCache wp.namespacedName) s₀ (wp.grants env s₀) s ∧
        (Written env wp (wp.grants env s₀) s ∨ syncWorkloadPolicy env wp s₀ = .error e s)) := by
  unfold reconcileContainers
  refine Ends.bind ((((syncWorkloadPolicy_ends ha).and (syncWorkloadPolicy_logged ha)).and
    (Ends.self _)).mono ?_ ?_)
  · rintro new s₁ ⟨⟨h, hl, hnew⟩, _⟩
    refine Ends.bind (ends_ok.mpr (Ends.bind (ends_ok.mpr ?_)))
    refine (reconcilePods_thinned (fun _ hx => hx)).mono (fun _ s ht => ?_) (fun _ s ht => ?_)
    · exact ⟨h.renumbers ha hnew hl ht, h.written ha hnew hl ht⟩
    · exact ⟨h.renumbers ha hnew hl ht, .inl (h.written ha hnew hl ht)⟩
  · rintro e s ⟨⟨h, hl⟩, herr⟩
    exact ⟨h.renumbers ha hl, .inr herr⟩

end

/-! ## The operations, on the resolver -/

section

variable {env : Env} {r r' : Resolver} {wp : WorkloadPolicy} {key : NamespacedPolicyName}

/-- A reconcile of `wp` leaves the entry `s` with a status. -/
structure Reconciles (env : Env) (wp : WorkloadPolicy) (M : Set ContainerMeta) (s₀ : PolicyScope)
    (s : PolicyScope) (status : PolicyStatus) : Prop where
  renumbers : Renumbers env wp M s₀ (wp.grants env s₀) s
  ready : status.state = .ready →
    status.mode = wp.mode.toProto ∧ Written env wp (wp.grants env s₀) s
  failed : Written env wp (wp.grants env s₀) s ∨ ∃ e, syncWorkloadPolicy env wp s₀ = .error e s

theorem step_reconcile (env : Env) (wp : WorkloadPolicy) (hs : Ids r) : ∃ s status,
    (Op.reconcile wp).step env r = r.commit wp.namespacedName s status ∧
      Reconciles env wp (matched r.podCache wp.namespacedName) (r.scope wp.namespacedName) s
        status := by
  have h : Ends (reconcileContainers env wp r.podCache (r.scope wp.namespacedName)) _ _ :=
    reconcileContainers_renumbers hs.allocated
  unfold Op.step Op.exec
  cases hres : reconcileContainers env wp r.podCache (r.scope wp.namespacedName) with
  | ok u s =>
    simp only [reconcileWP, hres]
    obtain ⟨hren, hw⟩ := h.of_ok hres
    exact ⟨s, _, rfl, hren, fun _ => ⟨rfl, hw⟩, .inl hw⟩
  | error e s =>
    simp only [reconcileWP, hres]
    obtain ⟨hren, hw⟩ := h.of_error hres
    exact ⟨s, _, rfl, hren, fun hready => absurd hready (by simp), hw.imp_right fun he => ⟨e, he⟩⟩

theorem step_delete {o : ObjectMeta} :
    DeleteStep o.namespacedName r ((Op.delete o).step env r) :=
  Ends.after handleWPDelete_deleteStep

theorem step_addPod {pod : PodInput} :
    PodStep (bindings (podMetas r pod) (r.pol (r.entryOf pod).podMeta.policyKey)) r
      ((Op.addPod pod).step env r) :=
  Ends.after addPodContainerFromNri_podStep

theorem step_removePod {podID : PodID} {cid : ContainerID} :
    PodStep ∅ r ((Op.removePod podID cid).step env r) :=
  Ends.after removePodContainerFromNri_podStep

theorem PodStep.sameId (h : PodStep B r r') (id : PolicyID) :
    SameId id r.world.maps r'.world.maps :=
  (h.moves.maps (Thinning.refl _)).kept id (by simp)

theorem PodStep.ids (h : PodStep B r r') (hs : Ids r) : Ids r' :=
  hs.pods h.wpState h.next h.sameId

theorem DeleteStep.pol (h : DeleteStep key r r') (k : NamespacedPolicyName) (n : ContainerName) :
    r'.pol k n = if k = key then none else r.pol k n := by
  unfold Resolver.pol
  rw [h.wpState]
  split <;> rfl

theorem DeleteStep.sameId (h : DeleteStep key r r') (hid : ∀ n, r.pol key n ≠ some id) :
    SameId id r.world.maps r'.world.maps :=
  (h.moves.maps (Thinning.refl _)).kept id fun ⟨n, hn⟩ => hid n hn

theorem DeleteStep.ids (h : DeleteStep key r r') (hs : Ids r) : Ids r' :=
  hs.forget h.pol h.next fun _ => h.sameId

/-- **Every operation keeps ids apart**, whatever is reported and whatever fails. -/
theorem Ids.step (hs : Ids r) (op : Op) : Ids (op.step env r) := by
  cases op with
  | reconcile wp =>
    obtain ⟨s, status, hstep, h⟩ := step_reconcile env wp hs
    rw [hstep]
    exact hs.commit (h.renumbers.own hs.allocated)
  | delete o => exact step_delete.ids hs
  | addPod pod => exact step_addPod.ids hs
  | removePod podID cid => exact step_removePod.ids hs

end

end RuntimeEnforcer
