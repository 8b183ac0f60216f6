import RuntimeEnforcer.Proof.Verdict
import RuntimeEnforcer.Proof.Enforced

/-!
# Verdicts while a policy is reconciled

A reconcile writes the maps one call after another, and the hook runs in between. The writes are
ordered so that most execs see the old policy or the new one: values before settings when a policy
id is written, and the binding before either when one is taken away. Two orders are missing. Values
are written before settings also when the new settings only monitor, so a path that leaves the list
in the same step is denied until the settings follow (`Flips`). And a policy id is cleared when the
first of its containers is unbound, values before settings, so the listed paths of the containers
still bound are denied in between (`Strips`).

`steady_iff` says that these are all.
-/

set_option autoImplicit false

namespace RuntimeEnforcer

open Lib Hook

/-- If the hook gives the same verdict over `m₀` and over `m₁`, it gives it over `m`. -/
def Transparent (x : Exec) (evt : ProcessEvt) (m₀ m₁ m : BpfMaps) : Prop :=
  ((enforceCgroupPolicy x m₀ evt).ret = 0 → (enforceCgroupPolicy x m₁ evt).ret = 0 →
    (enforceCgroupPolicy x m evt).ret = 0) ∧
  ((enforceCgroupPolicy x m₀ evt).ret = -eperm → (enforceCgroupPolicy x m₁ evt).ret = -eperm →
    (enforceCgroupPolicy x m evt).ret = -eperm)

/-- No exec in a cached container of the policy's pods gets a transient verdict in any of the states
the maps go through from `r` to `r'`. -/
def Steady (r r' : Resolver) (key : NamespacedPolicyName) : Prop :=
  ∀ c ∈ matched r.podCache key, ∀ x evt, getTrackerIdFromCurrTask r.world.maps x = c.cgroupID →
    ∀ seen, r'.world.history = seen ++ r.world.history → ∀ m ∈ seen,
      Transparent x evt r.world.maps r'.world.maps m

/-- The policy protects containers of name `n`, and lists the key. -/
def Resolver.Admits (r : Resolver) (key : NamespacedPolicyName) (n : ContainerName) (index : Int)
    (buf : Buffer) (pos : Nat) : Prop :=
  ∃ id st, r.pol key n = some id ∧ r.world.maps.policySettings id = some st ∧
    st.mode ≠ policyModeMonitor ∧ stringMapLookup r.world.maps index id buf pos = true

/-- The new spec only monitors the container, and does not list the key. -/
def WorkloadPolicy.Flips (wp : WorkloadPolicy) (n : ContainerName) (index : Int) (buf : Buffer)
    (pos : Nat) : Prop :=
  ∃ rules, wp.rulesByContainer.lookup n = some rules ∧ wp.mode = .monitor ∧
    ¬ Lists rules.allowed index buf pos

/-- The new spec drops the container, and the pods have another one of its name. -/
def WorkloadPolicy.Strips (wp : WorkloadPolicy) (M : Set ContainerMeta) (c : ContainerMeta) :
    Prop :=
  wp.names c.name = false ∧ ∃ c' ∈ M, c'.name = c.name ∧ c'.cgroupID ≠ c.cgroupID

/-- Some exec of a listed path is caught by one of the two. -/
def Exposed (r : Resolver) (wp : WorkloadPolicy) : Prop :=
  ∃ c ∈ matched r.podCache wp.namespacedName, ∃ x evt index buf pos,
    getTrackerIdFromCurrTask r.world.maps x = c.cgroupID ∧
    manner x r.world.maps evt = .listed index buf pos ∧
    r.Admits wp.namespacedName c.name index buf pos ∧
    (wp.Flips c.name index buf pos ∨ wp.Strips (matched r.podCache wp.namespacedName) c)

/-- The tracker attributes some cgroup to the container. -/
def Attributed (m : BpfMaps) (c : ContainerMeta) : Prop :=
  c.cgroupID ≠ 0 ∧ ∃ cg, cg ≠ 0 ∧ m.cgtracker cg = some c.cgroupID

theorem forall_matched {podCache : GoMap PodID PodEntry} {key : NamespacedPolicyName}
    {P : ContainerMeta → Prop} : (∀ c ∈ matched podCache key, P c) ↔
      ∀ pod ∈ podCache.entries, pod.2.podMeta.policyKey = key →
        ∀ c ∈ pod.2.containers.entries, P c.2 := by
  constructor
  · intro h pod hpod hkey c hc
    exact h c.2 ⟨pod.1, pod.2, GoMap.mem_entries.mp hpod, hkey, c.1, GoMap.mem_entries.mp hc⟩
  · rintro h c ⟨podID, pod, hpod, hkey, cid, hc⟩
    exact h ⟨podID, pod⟩ (GoMap.mem_entries.mpr hpod) hkey ⟨cid, c⟩ (GoMap.mem_entries.mpr hc)

/-! ## Verdicts over three states -/

/-- `Transparent`, for a manner and a cgroup. -/
def Hook.Manner.Within (f : Manner) (cg : CgroupID) (m₀ m₁ m : BpfMaps) : Prop :=
  (¬ f.Denied m₀ cg → ¬ f.Denied m₁ cg → ¬ f.Denied m cg) ∧
  (f.Denied m₀ cg → f.Denied m₁ cg → f.Denied m cg)

section

variable {f : Manner} {cg : CgroupID} {m₀ m₁ m : BpfMaps} {id : PolicyID} {x : Exec}
  {evt : ProcessEvt}

theorem transparent_iff (h₁ : m₁.cgtracker = m₀.cgtracker) (h : m.cgtracker = m₀.cgtracker) :
    Transparent x evt m₀ m₁ m ↔
      (manner x m₀ evt).Within (getTrackerIdFromCurrTask m₀ x) m₀ m₁ m := by
  have ha₀ := answers_enforceCgroupPolicy x m₀ evt
  have ha₁ := answers_enforceCgroupPolicy x m₁ evt
  have ha := answers_enforceCgroupPolicy x m evt
  rw [manner_congr h₁, getTrackerIdFromCurrTask_congr h₁] at ha₁
  rw [manner_congr h, getTrackerIdFromCurrTask_congr h] at ha
  unfold Transparent Manner.Within
  rw [ha₀.allowed_iff, ha₁.allowed_iff, ha.allowed_iff, ha₀.denied_iff, ha₁.denied_iff,
    ha.denied_iff]

theorem Hook.Manner.Within.of_first (h : f.Denied m cg ↔ f.Denied m₀ cg) : f.Within cg m₀ m₁ m :=
  ⟨fun h₀ _ => mt h.mp h₀, fun h₀ _ => h.mpr h₀⟩

theorem Hook.Manner.Within.of_last (h : f.Denied m cg ↔ f.Denied m₁ cg) : f.Within cg m₀ m₁ m :=
  ⟨fun _ h₁ => mt h.mp h₁, fun _ h₁ => h.mpr h₁⟩

theorem SameId.symm (h : SameId id m₀ m) : SameId id m m₀ :=
  ⟨fun i => (h.strings i).symm, h.settings.symm⟩

theorem Hook.Manner.refused_congr (h : ∀ i, m.polStrMaps i id = m₀.polStrMaps i id)
    (st : PolicySettings) : f.Refused m id st ↔ f.Refused m₀ id st := by
  cases f with
  | passes => exact Iff.rfl
  | foreign => exact Iff.rfl
  | listed index buf pos =>
    show stringMapLookup m index id buf pos = false ↔ stringMapLookup m₀ index id buf pos = false
    rw [stringMapLookup_congr_maps fun i _ => h i]

theorem Hook.Manner.denied_congr (hl : m.cgToPolicy.lookup cg = m₀.cgToPolicy.lookup cg)
    (hs : ∀ id, m₀.cgToPolicy.lookup cg = some id → SameId id m₀ m) :
    f.Denied m cg ↔ f.Denied m₀ cg := by
  unfold Manner.Denied
  rw [hl]
  refine exists_congr fun id => exists_congr fun st => and_congr_right fun hid => ?_
  rw [(hs id hid).settings, Manner.refused_congr (hs id hid).strings]

/-- While an id is written the verdict is the old one, the new one, or that of the new list under
the old settings. -/
theorem Partway.within {T : (i : MapIndex) → Option (InnerMap (stringMapsSizes i))}
    {st₀ st₁ : PolicySettings} (h : Partway id T (some st₁) m₀ m)
    (hl₀ : m₀.cgToPolicy.lookup cg = some id) (hl₁ : m₁.cgToPolicy.lookup cg = some id)
    (hl : m.cgToPolicy.lookup cg = some id) (hT : ∀ i, m₁.polStrMaps i id = T i)
    (hst₀ : m₀.policySettings id = some st₀) (hst₁ : m₁.policySettings id = some st₁) :
    f.Within cg m₀ m₁ m ∨ ∃ index buf pos, f = .listed index buf pos ∧
      st₀.mode ≠ policyModeMonitor ∧ st₁.mode = policyModeMonitor ∧
      stringMapLookup m₀ index id buf pos = true ∧ stringMapLookup m₁ index id buf pos = false := by
  rcases h.settings with hst | ⟨hst, hall⟩
  swap
  · -- both maps are written
    refine .inl (.of_last (Manner.denied_congr (hl.trans hl₁.symm) fun d hd => ?_))
    obtain rfl : id = d := Option.some.inj (hl₁.symm.trans hd)
    exact ⟨fun i => (hall i).trans (hT i).symm, hst.trans hst₁.symm⟩
  have hd₀ := Manner.denied_iff_of_bound (f := f) hl₀ hst₀
  have hd₁ := Manner.denied_iff_of_bound (f := f) hl₁ hst₁
  have hd := Manner.denied_iff_of_bound (f := f) hl (hst.trans hst₀)
  have hold : (f.Refused m id st₀ ↔ f.Refused m₀ id st₀) → f.Within cg m₀ m₁ m := fun hr =>
    .of_first (by rw [hd, hd₀, hr])
  cases f with
  | passes => exact .inl (hold Iff.rfl)
  | foreign => exact .inl (hold Iff.rfl)
  | listed index buf pos =>
    simp only [Manner.Refused] at hd₀ hd₁ hd hold
    by_cases hnew : ∀ i, outerMap index = some i → m.polStrMaps i id = m₁.polStrMaps i id
    · rw [stringMapLookup_congr_maps hnew] at hd
      by_cases hflip : st₀.mode ≠ policyModeMonitor ∧ st₁.mode = policyModeMonitor ∧
          stringMapLookup m₀ index id buf pos = true ∧ stringMapLookup m₁ index id buf pos = false
      · exact .inr ⟨index, buf, pos, rfl, hflip⟩
      · refine .inl ⟨fun h₀ h₁ hm => hflip ?_, fun h₀ h₁ => ?_⟩
        · obtain ⟨hmode, hfound⟩ := hd.mp hm
          rw [hd₀, not_and] at h₀
          rw [hd₁, and_comm, not_and, not_not] at h₁
          exact ⟨hmode, h₁ hfound, eq_true_of_ne_false (h₀ hmode), hfound⟩
        · exact hd.mpr ⟨(hd₀.mp h₀).1, (hd₁.mp h₁).2⟩
    · -- the class the hook looks in is still the old one
      have hsame : ∀ i, outerMap index = some i → m.polStrMaps i id = m₀.polStrMaps i id := by
        intro i hi
        refine (h.classes i).resolve_right fun hn => hnew fun j hj => ?_
        obtain rfl : i = j := Option.some.inj (hi.symm.trans hj)
        exact hn.trans (hT i).symm
      exact .inl (hold (by rw [stringMapLookup_congr_maps hsame]))

end

/-! ## The states of a reconcile -/

/-- A state of the loop over the pods, which starts from `s₁`. -/
abbrev SecondLoop (r : Resolver) (wp : WorkloadPolicy) (new : PolicyByContainer) (s₁ : PolicyScope)
    (m : BpfMaps) : Prop :=
  Sweeping (matched r.podCache wp.namespacedName) ((s₁.record new).applied wp)
    ((s₁.record new).removed wp) (s₁.record new).world.maps m

/-- A reconcile that returned, from a state reached without failures: `s₁` is where the first loop
ended and `s` the second. -/
structure Pass (env : Env) (R : List Report) (n : Node) (wp : WorkloadPolicy)
    (new : PolicyByContainer) (s₁ s : PolicyScope) : Prop where
  inventory : Inventory R
  sound : Sound R n.resolver
  owned : Owned n.resolver
  enforced : Enforced env n
  sync : SyncInv env wp (n.resolver.scope wp.namespacedName) {n | wp.names n = true} new s₁
  sweep : SweepInv env (matched n.resolver.podCache wp.namespacedName)
    ((s₁.record new).applied wp) ((s₁.record new).removed wp) (s₁.record new)
    (matched n.resolver.podCache wp.namespacedName)
    (matched n.resolver.podCache wp.namespacedName) s

/-- What an exposed exec looks like from inside. -/
def Caught (r : Resolver) (wp : WorkloadPolicy) (c : ContainerMeta) (f : Manner) : Prop :=
  ∃ index buf pos, f = .listed index buf pos ∧ r.Admits wp.namespacedName c.name index buf pos ∧
    (wp.Flips c.name index buf pos ∨ wp.Strips (matched r.podCache wp.namespacedName) c)

section

variable {env : Env} {R : List Report} {n : Node} {wp : WorkloadPolicy} {new : PolicyByContainer}
  {s₁ s : PolicyScope} {c : ContainerMeta} {rules : WorkloadPolicyRules} {id : PolicyID}
  {m : BpfMaps} {f : Manner}

theorem Hook.Manner.not_denied_listed {cg : CgroupID} {index : Int} {buf : Buffer} {pos : Nat}
    (hl : m.cgToPolicy.lookup cg = some id) (hfound : stringMapLookup m index id buf pos = true) :
    ¬ (Manner.listed index buf pos).Denied m cg := by
  rintro ⟨id', st, hl', _, _, href⟩
  obtain rfl : id = id' := Option.some.inj (hl.symm.trans hl')
  exact absurd (hfound.symm.trans href) (by simp)

variable (h : Pass env R n wp new s₁ s)

include h

theorem Pass.oneName : OneName (matched n.resolver.podCache wp.namespacedName) :=
  h.sound.oneName h.inventory

/-- The first loop leaves the id of a dropped name alone. -/
theorem Pass.kept (hn : wp.names c.name = false)
    (hpol : n.resolver.pol wp.namespacedName c.name = some id) :
    SameId id n.resolver.world.maps (s₁.record new).world.maps := by
  refine h.sync.synced.kept id (h.sound.lt _ _ _ hpol) fun n' hn' hid' => ?_
  obtain rfl := (h.sound.inj _ _ _ _ id hpol (Resolver.scope_lookup n' ▸ hid')).2
  exact absurd hn' (by simp [hn])

theorem Pass.states :
    Moves (fun m => Syncing env wp (n.resolver.scope wp.namespacedName) m ∨
      SecondLoop n.resolver wp new s₁ m) n.resolver.world s.world := by
  have hfirst : Moves _ n.resolver.world s₁.world := h.sync.runs.moves
  have hsecond : Moves _ s₁.world s.world := h.sweep.runs.moves
  exact (hfirst.mono fun _ hm => .inl hm).trans (hsecond.mono fun _ hm => .inr hm)

theorem Pass.cgtracker
    (hm : Syncing env wp (n.resolver.scope wp.namespacedName) m ∨
      SecondLoop n.resolver wp new s₁ m) :
    m.cgtracker = n.resolver.world.maps.cgtracker := by
  rcases hm with hm | hm
  · exact hm.cgtracker
  · exact hm.cgtracker.trans h.sync.synced.cgtracker

section

variable (hc : c ∈ matched n.resolver.podCache wp.namespacedName)

include hc

theorem Pass.bound :
    n.resolver.world.maps.cgToPolicy.lookup c.cgroupID
      = n.resolver.pol wp.namespacedName c.name := by
  cases hpol : n.resolver.pol wp.namespacedName c.name with
  | some id =>
    obtain ⟨p, pm, cid, hcached, hkey⟩ := mem_matched.mp hc
    exact h.enforced.bound p pm cid c hcached id (hkey ▸ hpol)
  | none =>
    refine Option.eq_none_iff_forall_ne_some.mpr fun id hid => ?_
    exact absurd (h.owned.free h.inventory h.sound hc hid) (by simp [hpol])

theorem Pass.unbound (hn : wp.names c.name = false) :
    s.world.maps.cgToPolicy.lookup c.cgroupID = none := by
  cases hpol : n.resolver.pol wp.namespacedName c.name with
  | some id =>
    exact (h.sweep.swept.gone c hc id (h.sync.lookup_removed_iff.mpr
      ⟨hn, (Resolver.scope_lookup _).trans hpol⟩)).2.1
  | none =>
    -- no visit touches its cgroup
    rw [h.sweep.swept.bindingKept c.cgroupID (fun d hd hcg => ?_) fun b hb hcg => ?_]
    · show s₁.world.maps.cgToPolicy.lookup c.cgroupID = none
      rw [h.sync.synced.cgToPolicy]
      exact (h.bound hc).trans hpol
    · refine Option.eq_none_iff_forall_ne_some.mpr fun id hid => ?_
      have hold := (h.sync.lookup_removed_iff.mp hid).2
      rw [h.oneName d hd c hc hcg, Resolver.scope_lookup, hpol] at hold
      exact absurd hold (by simp)
    · rw [h.oneName b hb c hc hcg, PolicyScope.lookup_applied, hn]
      rfl

/-- A container the spec names ends up bound to an id that carries its rules, and the second loop
does not touch the id. -/
theorem Pass.carries (hr : wp.rulesByContainer.lookup c.name = some rules) :
    ∃ id, (s₁.record new).polByContainer.lookup c.name = some id ∧
      s.world.maps.cgToPolicy.lookup c.cgroupID = some id ∧ Carries env wp rules s.world.maps id ∧
      ∀ m, SecondLoop n.resolver wp new s₁ m → SameId id s.world.maps m := by
  have hn := WorkloadPolicy.names_of_lookup hr
  obtain ⟨id, hid, hcarr⟩ := h.sync.recorded_carries hr
  have hkept : ∀ m, SecondLoop n.resolver wp new s₁ m → SameId id s₁.world.maps m := by
    intro m hm
    refine (hm.first id).resolve_left ?_
    rintro ⟨d, _, hd, _⟩
    obtain ⟨hnot, hold⟩ := h.sync.lookup_removed_iff.mp hd
    have hname := h.sync.recorded_inj h.sound.allocated hid (h.sync.recorded_keeps hold)
    exact absurd (hname ▸ hn) (by simp [hnot])
  have hlast : SecondLoop n.resolver wp new s₁ s.world.maps :=
    Swept.sweeping h.sweep.subD h.sweep.subB h.sweep.swept
  have hend := hkept s.world.maps hlast
  exact ⟨id, hid, h.sweep.swept.bound c hc id (SyncInv.lookup_applied_iff.mpr ⟨hn, hid⟩),
    hcarr.of_sameId hend, fun m hm => hend.symm.trans (hkept m hm)⟩

/-! ## No other transient -/

theorem Pass.within_syncing (hm : Syncing env wp (n.resolver.scope wp.namespacedName) m) :
    f.Within c.cgroupID n.resolver.world.maps s.world.maps m ∨ Caught n.resolver wp c f := by
  have hl : m.cgToPolicy.lookup c.cgroupID = n.resolver.world.maps.cgToPolicy.lookup c.cgroupID :=
    congrArg (AList.lookup c.cgroupID) hm.cgToPolicy
  cases hpol : n.resolver.pol wp.namespacedName c.name with
  | none =>
    refine .inl (.of_first (Manner.denied_congr hl fun id hid => ?_))
    rw [h.bound hc, hpol] at hid
    exact absurd hid (by simp)
  | some id =>
    have hl₀ := (h.bound hc).trans hpol
    cases hr : wp.rulesByContainer.lookup c.name with
    | none =>
      -- the first loop leaves the id alone
      refine .inl (.of_first (Manner.denied_congr hl fun d hd => ?_))
      obtain rfl : id = d := Option.some.inj (hl₀.symm.trans hd)
      refine hm.kept id (h.sound.lt _ _ _ hpol) fun n' hn' => ?_
      obtain rfl := (h.sound.inj _ _ _ _ id hpol (Resolver.scope_lookup n' ▸ hn')).2
      simp [WorkloadPolicy.names, hr]
    | some rules =>
      obtain ⟨id', hid', hl₁, hcarr, _⟩ := h.carries hc hr
      have hold := h.sync.recorded_keeps ((Resolver.scope_lookup c.name).trans hpol)
      obtain rfl : id = id' := Option.some.inj (hold.symm.trans hid')
      obtain ⟨st₀, hst₀⟩ := Option.isSome_iff_exists.mp (h.sound.settings _ _ _ hpol)
      have hpart := hm.written c.name rules id hr ((Resolver.scope_lookup c.name).trans hpol)
      refine (hpart.within hl₀ hl₁ (hl.trans hl₀) hcarr.strings hst₀ hcarr.settings).imp_right ?_
      rintro ⟨index, buf, pos, rfl, hmode, hmon, hfound, hnot⟩
      refine ⟨index, buf, pos, rfl, ⟨id, st₀, hpol, hst₀, hmode, hfound⟩, .inl ⟨rules, hr, ?_, ?_⟩⟩
      · cases hwp : wp.mode with
        | monitor => rfl
        | protect =>
          rw [hwp] at hmon
          exact absurd hmon (by cases rules.allowForeignRootExec <;> decide)
      · rw [← stringMapLookup_iff_lists (holds_of_newClass hcarr.valid hcarr.strings), hnot]
        simp

/-- Before the second loop the container is bound as it was. -/
theorem Pass.lookup_between :
    (s₁.record new).world.maps.cgToPolicy.lookup c.cgroupID
      = n.resolver.pol wp.namespacedName c.name :=
  (congrArg (AList.lookup c.cgroupID) h.sync.synced.cgToPolicy).trans (h.bound hc)

theorem Pass.within_sweeping_named (hr : wp.rulesByContainer.lookup c.name = some rules)
    (hm : SecondLoop n.resolver wp new s₁ m) :
    f.Within c.cgroupID n.resolver.world.maps s.world.maps m := by
  obtain ⟨id, hid, hl₁, _, hkept⟩ := h.carries hc hr
  have hlast : m.cgToPolicy.lookup c.cgroupID = some id →
      f.Within c.cgroupID n.resolver.world.maps s.world.maps m := by
    intro hl
    refine .of_last (Manner.denied_congr (hl.trans hl₁.symm) fun d hd => ?_)
    obtain rfl : id = d := Option.some.inj (hl₁.symm.trans hd)
    exact hkept m hm
  rcases hm.lookup c.cgroupID with hl | ⟨d, hd, hcg, hrem, _⟩ | ⟨d, hd, hcg, id', hid', hl⟩
  · have hl' := hl.trans (h.lookup_between hc)
    cases hpol : n.resolver.pol wp.namespacedName c.name with
    | some id' =>
      have hold := h.sync.recorded_keeps ((Resolver.scope_lookup c.name).trans hpol)
      exact hlast (hl'.trans (hpol.trans (hold.symm.trans hid)))
    | none =>
      refine .of_first (Manner.denied_congr (hl'.trans (h.bound hc).symm) fun d hd => ?_)
      rw [h.bound hc, hpol] at hd
      exact absurd hd (by simp)
  · obtain ⟨d', hd'⟩ := Option.isSome_iff_exists.mp hrem
    rw [h.oneName d hd c hc hcg] at hd'
    exact absurd (h.sync.lookup_removed_iff.mp hd').1
      (by simp [WorkloadPolicy.names_of_lookup hr])
  · rw [h.oneName d hd c hc hcg] at hid'
    exact hlast (hl.trans ((SyncInv.lookup_applied_iff.mp hid').2.symm.trans hid))

/-- A dropped container that is denied is bound as it was. Either nothing else has happened to it,
or its id is being cleared on behalf of another container. -/
theorem Pass.within_sweeping_dropped (hn : wp.names c.name = false)
    (hm : SecondLoop n.resolver wp new s₁ m) :
    f.Within c.cgroupID n.resolver.world.maps s.world.maps m ∨ Caught n.resolver wp c f := by
  have hafter : ¬ f.Denied s.world.maps c.cgroupID := Manner.not_denied_of_unbound (h.unbound hc hn)
  by_cases hd : f.Denied m c.cgroupID
  swap
  · exact .inl ⟨fun _ _ => hd, fun _ h₁ => absurd h₁ hafter⟩
  obtain ⟨id, st, hl, hst, hmode, href⟩ := hd
  have hpol : n.resolver.pol wp.namespacedName c.name = some id := by
    rcases hm.lookup c.cgroupID with hl' | ⟨_, _, _, _, hl'⟩ | ⟨d, hd, hcg, id', hid', _⟩
    · exact (h.lookup_between hc).symm.trans (hl'.symm.trans hl)
    · exact absurd (hl'.symm.trans hl) (by simp)
    · rw [h.oneName d hd c hc hcg] at hid'
      exact absurd (SyncInv.lookup_applied_iff.mp hid').1 (by simp [hn])
  have hl₀ := (h.bound hc).trans hpol
  have hsame := h.kept hn hpol
  rcases hm.first id with ⟨d, hd, hrem, hnone⟩ | hkept
  swap
  · refine .inl (.of_first (Manner.denied_congr (hl.trans hl₀.symm) fun d hd => ?_))
    obtain rfl : id = d := Option.some.inj (hl₀.symm.trans hd)
    exact hsame.trans hkept
  have hst₀ : n.resolver.world.maps.policySettings id = some st := by
    rcases hm.settings id with hst' | hst'
    · exact hsame.settings.symm.trans (hst'.symm.trans hst)
    · exact absurd (hst'.symm.trans hst) (by simp)
  have hbefore : f.Refused n.resolver.world.maps id st →
      f.Within c.cgroupID n.resolver.world.maps s.world.maps m := fun hr₀ =>
    ⟨fun h₀ _ => absurd ⟨id, st, hl₀, hst₀, hmode, hr₀⟩ h₀, fun _ h₁ => absurd h₁ hafter⟩
  cases f with
  | passes => exact href.elim
  | foreign => exact .inl (hbefore href)
  | listed index buf pos =>
    cases hfound : stringMapLookup n.resolver.world.maps index id buf pos with
    | false => exact .inl (hbefore hfound)
    | true =>
      have hname : d.name = c.name := by
        have hold := (h.sync.lookup_removed_iff.mp hrem).2
        exact (h.sound.inj _ _ _ _ id (Resolver.scope_lookup d.name ▸ hold) hpol).2
      refine .inr ⟨index, buf, pos, rfl, ⟨id, st, hpol, hst₀, hmode, hfound⟩,
        .inr ⟨hn, d, hd, hname, fun hcg => ?_⟩⟩
      rw [hcg, hl] at hnone
      exact absurd hnone (by simp)

theorem Pass.within
    (hm : Syncing env wp (n.resolver.scope wp.namespacedName) m ∨
      SecondLoop n.resolver wp new s₁ m) :
    f.Within c.cgroupID n.resolver.world.maps s.world.maps m ∨ Caught n.resolver wp c f := by
  rcases hm with hm | hm
  · exact h.within_syncing hc hm
  · cases hr : wp.rulesByContainer.lookup c.name with
    | some rules => exact .inl (h.within_sweeping_named hc hr hm)
    | none => exact h.within_sweeping_dropped hc (by simp [WorkloadPolicy.names, hr]) hm

end

/-- **Nothing else is transient.** -/
theorem Pass.steady (hexp : ¬ Exposed n.resolver wp) (status : PolicyStatus) :
    Steady n.resolver (n.resolver.commit wp.namespacedName s status) wp.namespacedName := by
  intro c hc x evt hx seen hseen m hm
  have hstate := h.states.of_mem_seen hseen hm
  have hlast := h.cgtracker (.inr (Swept.sweeping h.sweep.subD h.sweep.subB h.sweep.swept))
  refine (transparent_iff hlast (h.cgtracker hstate)).mpr ?_
  rw [hx]
  refine (h.within hc hstate).resolve_right ?_
  rintro ⟨index, buf, pos, hf, hadm, hwhich⟩
  exact hexp ⟨c, hc, x, evt, index, buf, pos, hx, hf, hadm, hwhich⟩

/-! ## The two transients -/

variable {evt : ProcessEvt} {x : Exec} {buf : Buffer} {index : Int} {pos : Nat}
  (hc : c ∈ matched n.resolver.podCache wp.namespacedName)

include hc

theorem Pass.not_steady (hx : getTrackerIdFromCurrTask n.resolver.world.maps x = c.cgroupID)
    (hf : manner x n.resolver.world.maps evt = f) (hsaw : Saw n.resolver.world s.world m)
    (h₀ : ¬ f.Denied n.resolver.world.maps c.cgroupID) (h₁ : ¬ f.Denied s.world.maps c.cgroupID)
    (hd : f.Denied m c.cgroupID) (status : PolicyStatus) :
    ¬ Steady n.resolver (n.resolver.commit wp.namespacedName s status) wp.namespacedName := by
  intro hst
  obtain ⟨_, seen, hseen, _⟩ := h.states
  have hm : m ∈ seen := hsaw.mem (fun heq => h₀ (heq ▸ hd)) hseen
  have hlast := h.cgtracker (.inr (Swept.sweeping h.sweep.subD h.sweep.subB h.sweep.swept))
  have htr := (transparent_iff hlast (h.cgtracker (h.states.of_mem_seen hseen hm))).mp
    (hst c hc x evt hx seen hseen m hm)
  rw [hx, hf] at htr
  exact htr.1 h₀ h₁ hd

theorem Pass.flips (hx : getTrackerIdFromCurrTask n.resolver.world.maps x = c.cgroupID)
    (hf : manner x n.resolver.world.maps evt = .listed index buf pos)
    (hadm : n.resolver.Admits wp.namespacedName c.name index buf pos)
    (hflip : wp.Flips c.name index buf pos) (status : PolicyStatus) :
    ¬ Steady n.resolver (n.resolver.commit wp.namespacedName s status) wp.namespacedName := by
  obtain ⟨id, st, hpol, hst, hmode, hfound⟩ := hadm
  obtain ⟨rules, hr, hmon, hnot⟩ := hflip
  obtain ⟨id', hid', hl₁, hcarr, _⟩ := h.carries hc hr
  have hold := (Resolver.scope_lookup c.name).trans hpol
  obtain rfl : id = id' := Option.some.inj ((h.sync.recorded_keeps hold).symm.trans hid')
  have hl₀ := (h.bound hc).trans hpol
  obtain ⟨m, hsaw, hsync, hstr, hset⟩ :=
    h.sync.halfway c.name (WorkloadPolicy.names_of_lookup hr) rules id hr hold
  refine h.not_steady hc hx hf (hsaw.before h.sweep.runs.moves)
    (Manner.not_denied_listed hl₀ hfound)
    ?_ ⟨id, st, ?_, hset.trans hst, hmode, ?_⟩ status
  · rw [Manner.denied_iff_of_bound hl₁ hcarr.settings, hmon]
    exact fun hd => hd.1 (by cases rules.allowForeignRootExec <;> decide)
  · rw [hsync.cgToPolicy]
    exact hl₀
  · refine eq_false_of_ne_true fun hfind => hnot ?_
    exact (stringMapLookup_iff_lists (holds_of_newClass hcarr.valid hstr)).mp hfind

/-- The moment between the two deletions: whichever container of the name came first, another one
is still bound. -/
theorem Pass.strips (hattr : ∀ c ∈ matched n.resolver.podCache wp.namespacedName,
      Attributed n.resolver.world.maps c)
    (hx : getTrackerIdFromCurrTask n.resolver.world.maps x = c.cgroupID)
    (hf : manner x n.resolver.world.maps evt = .listed index buf pos)
    (hadm : n.resolver.Admits wp.namespacedName c.name index buf pos)
    (hstrip : wp.Strips (matched n.resolver.podCache wp.namespacedName) c) (status : PolicyStatus) :
    ¬ Steady n.resolver (n.resolver.commit wp.namespacedName s status) wp.namespacedName := by
  obtain ⟨id, st, hpol, hst, hmode, hfound⟩ := hadm
  obtain ⟨hn, c', hc', hname', hne'⟩ := hstrip
  have hrem := h.sync.lookup_removed_iff.mpr ⟨hn, (Resolver.scope_lookup c.name).trans hpol⟩
  obtain ⟨d, hd, hdname, m, hsaw, hm⟩ := h.sweep.stripped c.name id hrem ⟨c, hc, rfl⟩
  -- a container of the name that is not the first one
  obtain ⟨e, he, hename, hene⟩ : ∃ e ∈ matched n.resolver.podCache wp.namespacedName,
      e.name = c.name ∧ e.cgroupID ≠ d.cgroupID := by
    by_cases hcd : c.cgroupID = d.cgroupID
    · exact ⟨c', hc', hname', hcd ▸ hne'⟩
    · exact ⟨c, hc, rfl, hcd⟩
  -- the same exec there
  obtain ⟨he₀, cg, hcg, htr⟩ := hattr e he
  have hpass : manner x n.resolver.world.maps evt ≠ .passes := by simp [hf]
  have hx' := getTrackerIdFromCurrTask_inCgroup (hx ▸ (hattr c hc).1) hcg htr
  have hl₀ : n.resolver.world.maps.cgToPolicy.lookup e.cgroupID = some id :=
    (h.bound he).trans (hename ▸ hpol)
  refine h.not_steady he hx' ((manner_inCgroup hpass hcg htr he₀).trans hf)
    (hsaw.after h.sync.runs.moves) (Manner.not_denied_listed hl₀ hfound)
    (Manner.not_denied_of_unbound (h.unbound he (hename ▸ hn))) ⟨id, st, ?_, ?_, hmode, ?_⟩ status
  · rw [hm.lookup e he (hename.trans hdname.symm) hene, h.lookup_between he, hename]
    exact hpol
  · exact hm.settings.trans ((h.kept hn hpol).settings.trans hst)
  · refine eq_false_of_ne_true fun hfind => ?_
    obtain ⟨i, _, inner, hin, _⟩ := stringMapLookup_iff.mp hfind
    exact absurd hin (by simp [hm.strings i])

end

theorem reconcileWP_pass {env : Env} {ops : List Op} {wp : WorkloadPolicy} {r' : Resolver}
    (hinv : Inventory (ops.flatMap Op.reports))
    (hops : Along (Node.step env) (fun n op => op.Succeeds env n.resolver) ops {})
    (hok : reconcileWP env wp (run (Node.step env) ops {}).resolver = .ok () r') :
    ∃ new s₁ s status,
      r' = (run (Node.step env) ops {}).resolver.commit wp.namespacedName s status ∧
      Pass env (ops.flatMap Op.reports) (run (Node.step env) ops {}) wp new s₁ s := by
  obtain ⟨hs, ho⟩ := Owned.run_succeeds hinv (fun _ hx => hx) Sound.init Owned.init hops
  have he := Enforced.init.run hinv (fun _ hx => hx) Sound.init hops
  obtain ⟨s, status, rfl, new, s₁, hsync, hsweep⟩ := (reconcileWP_ends hs hinv).of_ok hok
  exact ⟨new, s₁, s, status, rfl, hinv, hs, ho, he, hsync, hsweep⟩

/-- A reconcile that returns and exposes no exec gives none a transient verdict, whatever cgroups
the hook attributes execs to. -/
theorem steady_of_not_exposed {env : Env} {ops : List Op} {wp : WorkloadPolicy} {r' : Resolver}
    (hinv : Inventory (ops.flatMap Op.reports))
    (hops : Along (Node.step env) (fun n op => op.Succeeds env n.resolver) ops {})
    (hok : reconcileWP env wp (run (Node.step env) ops {}).resolver = .ok () r')
    (hexposed : ¬ Exposed (run (Node.step env) ops {}).resolver wp) :
    Steady (run (Node.step env) ops {}).resolver r' wp.namespacedName := by
  obtain ⟨new, s₁, s, status, rfl, h⟩ := reconcileWP_pass hinv hops hok
  exact h.steady hexposed status

/-- **Which reconciles are seen as one step.** In a run whose calls all succeed, a reconcile that
returns gives no exec a transient verdict if and only if it exposes none. -/
theorem steady_iff_not_exposed {env : Env} {ops : List Op} {wp : WorkloadPolicy} {r' : Resolver}
    (hinv : Inventory (ops.flatMap Op.reports))
    (hops : Along (Node.step env) (fun n op => op.Succeeds env n.resolver) ops {})
    (hok : reconcileWP env wp (run (Node.step env) ops {}).resolver = .ok () r')
    (hattr : ∀ c ∈ matched (run (Node.step env) ops {}).resolver.podCache wp.namespacedName,
      Attributed (run (Node.step env) ops {}).resolver.world.maps c) :
    Steady (run (Node.step env) ops {}).resolver r' wp.namespacedName ↔
      ¬ Exposed (run (Node.step env) ops {}).resolver wp := by
  refine ⟨?_, steady_of_not_exposed hinv hops hok⟩
  obtain ⟨new, s₁, s, status, rfl, h⟩ := reconcileWP_pass hinv hops hok
  rintro hst ⟨c, hc, x, evt, index, buf, pos, hx, hf, hadm, hflip | hstrip⟩
  · exact h.flips hc hx hf hadm hflip status hst
  · exact h.strips hc hattr hx hf hadm hstrip status hst

namespace Sample

/-- Two pods are bound to a policy that lists `/a`. -/
def listed : List Op :=
  [.reconcile (webApp .protect ["/a".toUTF8.toList]), .addPod (pod "a" "c1" 7),
    .addPod (pod "b" "c2" 8)]

/-- The list is replaced, and the policy still protects. -/
theorem steady_iff_not_exposed_replaced :
    ∃ r', reconcileWP .calm (webApp .protect ["/b".toUTF8.toList])
        (run (Node.step .calm) listed {}).resolver = .ok () r' ∧
      Steady (run (Node.step .calm) listed {}).resolver r' web.namespacedName := by
  have hall : ∀ c ∈ matched (run (Node.step .calm) listed {}).resolver.podCache web.namespacedName,
      c.name = "app" ∧ c.cgroupID ≠ 0 ∧
        (run (Node.step .calm) listed {}).resolver.world.maps.cgtracker c.cgroupID
          = some c.cgroupID :=
    forall_matched.mpr (by decide +kernel)
  obtain ⟨_, hok⟩ := (isOk_iff (r := reconcileWP .calm (webApp .protect ["/b".toUTF8.toList])
    (run (Node.step .calm) listed {}).resolver)).mp (by decide +kernel)
  refine
    ⟨_, hok, (steady_iff_not_exposed (by decide) (by decide +kernel) hok fun c hc => ?_).mpr ?_⟩
  · obtain ⟨_, hne, htr⟩ := hall c hc
    exact ⟨hne, c.cgroupID, hne, htr⟩
  · rintro ⟨c, hc, _, _, _, _, _, _, _, _, ⟨_, _, hmon, _⟩ | ⟨hn, _⟩⟩
    · exact absurd hmon (by decide)
    · rw [(hall c hc).1] at hn
      exact absurd hn (by decide +kernel)

def execA : Exec := branchExec [0x61] 1 7

/-- The policy turns to monitoring and drops `/a`. The exec passes before the reconcile, because it
is listed, and after it, because the policy only monitors; but it is denied from the deletion of the
string map to the update of the settings. -/
theorem denied_before_monitoring :
    Inventory (listed.flatMap Op.reports) ∧
      Along (Node.step .calm) (fun n op => op.Succeeds .calm n.resolver) listed {} ∧
      ∃ r', reconcileWP .calm (webApp .monitor []) (run (Node.step .calm) listed {}).resolver
          = .ok () r' ∧
        ¬ Steady (run (Node.step .calm) listed {}).resolver r' web.namespacedName := by
  have hinv : Inventory (listed.flatMap Op.reports) := by decide
  have hops : Along (Node.step .calm) (fun n op => op.Succeeds .calm n.resolver) listed {} := by
    decide +kernel
  obtain ⟨_, hok⟩ := (isOk_iff (r := reconcileWP .calm (webApp .monitor [])
    (run (Node.step .calm) listed {}).resolver)).mp (by decide +kernel)
  refine ⟨hinv, hops, _, hok, fun hst => ?_⟩
  obtain ⟨_, _, s, status, hr', h⟩ := reconcileWP_pass hinv hops hok
  have hmoves : Moves (fun _ => True) (run (Node.step .calm) listed {}).resolver.world
      (after (reconcileWP .calm (webApp .monitor [])
        (run (Node.step .calm) listed {}).resolver)).world := by
    rw [hr']
    exact h.states.mono fun _ _ => trivial
  -- the reconcile makes twelve writes
  have hseen := hmoves.take_history (k := 12) (by decide +kernel)
  obtain ⟨m, hm, hdeny⟩ : ∃ m ∈ (after (reconcileWP .calm (webApp .monitor [])
      (run (Node.step .calm) listed {}).resolver)).world.history.take 12,
      (enforceCgroupPolicy execA m zeroEvt).ret = -eperm := by decide +kernel
  have hshow : (run (Node.step .calm) listed {}).resolver.shows "a" "c1"
      = some (web.namespacedName, ⟨"app", 7⟩) := by decide +kernel
  obtain ⟨pm, hcached, hkey⟩ := Resolver.cached_of_shows hshow
  have htr := hst ⟨"app", 7⟩ (mem_matched.mpr ⟨_, pm, _, hcached, hkey⟩) execA zeroEvt
    (by decide +kernel) _ hseen m hm
  exact absurd ((htr.1 (by decide +kernel) (by decide +kernel)).symm.trans hdeny) (by decide)

/-- The spec drops the container: the second pod to be visited is denied `/a` until the settings of
the policy id are deleted on behalf of the first. -/
example : ∃ m ∈ (after (reconcileWP .calm webNone
    (run (Node.step .calm) listed {}).resolver)).world.history,
    (enforceCgroupPolicy execA m zeroEvt).ret = -eperm := by decide +kernel

end Sample

end RuntimeEnforcer
