import RuntimeEnforcer.Proof.Sync

/-!
# What a reconcile does

The two loops put together, on the policy's own entry. `ReconcileEffect` is what every reconcile
leaves behind, whether it returned or failed; `Enforces` is what one that returned has achieved.
-/

set_option autoImplicit false

namespace RuntimeEnforcer

open Lib

def PolicyScope.record (new : PolicyByContainer) (s : PolicyScope) : PolicyScope :=
  { s with polByContainer := new ∪ s.polByContainer }

/-- The policy's ids that stay in the spec, and those that do not. -/
def PolicyScope.applied (s : PolicyScope) (wp : WorkloadPolicy) : PolicyByContainer :=
  s.polByContainer.filter wp.names

def PolicyScope.removed (s : PolicyScope) (wp : WorkloadPolicy) : PolicyByContainer :=
  s.polByContainer.filter fun n => !wp.names n

def OneName (M : Set ContainerMeta) : Prop :=
  ∀ c ∈ M, ∀ c' ∈ M, c.cgroupID = c'.cgroupID → c.name = c'.name

/-- Both loops have returned. -/
def Reconciled (env : Env) (wp : WorkloadPolicy) (M : Set ContainerMeta) (s₀ s : PolicyScope) :
    Prop :=
  ∃ new s₁, SyncInv env wp s₀ {n | wp.names n = true} new s₁ ∧
    SweepInv env M ((s₁.record new).applied wp) ((s₁.record new).removed wp) (s₁.record new) M M s

/-- The first loop has failed, or the second. -/
def ReconcileFailed (env : Env) (wp : WorkloadPolicy) (M : Set ContainerMeta) (s₀ : PolicyScope)
    (e : ResolverErr) (s : PolicyScope) : Prop :=
  SyncFails env wp s₀ e s ∨ ∃ new s₁, syncWorkloadPolicy env wp s₀ = .ok new s₁ ∧
    SyncInv env wp s₀ {n | wp.names n = true} new s₁ ∧
    SweepFails env M ((s₁.record new).applied wp) ((s₁.record new).removed wp) (s₁.record new) e s

/-- What every reconcile leaves behind, `D` being the containers it has taken a policy from. -/
structure ReconcileEffect (wp : WorkloadPolicy) (M : Set ContainerMeta) (s₀ : PolicyScope)
    (D : Set ContainerMeta) (s : PolicyScope) : Prop where
  sub : D ⊆ M
  next : s₀.nextPolicyID ≤ s.nextPolicyID
  polFrom : ∀ n id, s.polByContainer.lookup n = some id → s₀.polByContainer.lookup n = some id ∨
    wp.names n = true ∧ s₀.nextPolicyID ≤ id ∧ id < s.nextPolicyID
  polInj : ∀ n n' id, s.polByContainer.lookup n = some id → s.polByContainer.lookup n' = some id →
    n = n'
  polLost : ∀ n id, s₀.polByContainer.lookup n = some id → s.polByContainer.lookup n = some id ∨
    ∃ c ∈ D, c.name = n ∧ wp.names n = false
  gone : ∀ c ∈ D, wp.names c.name = false → (s₀.polByContainer.lookup c.name).isSome →
    s.polByContainer.lookup c.name = none ∧ s.world.maps.cgToPolicy.lookup c.cgroupID = none
  binding : ∀ cg id, s.world.maps.cgToPolicy.lookup cg = some id →
    s₀.world.maps.cgToPolicy.lookup cg = some id ∨
    ∃ c ∈ M, c.cgroupID = cg ∧ s.polByContainer.lookup c.name = some id
  settings : ∀ n id, s.polByContainer.lookup n = some id →
    (s.world.maps.policySettings id).isSome
  kept : ∀ id, id < s₀.nextPolicyID → (∀ n, s₀.polByContainer.lookup n ≠ some id) →
    SameId id s₀.world.maps s.world.maps
  fresh : ∀ id, s.nextPolicyID ≤ id → SameId id s₀.world.maps s.world.maps

/-- What a reconcile that returned has achieved. -/
structure Enforces (env : Env) (wp : WorkloadPolicy) (M : Set ContainerMeta) (s₀ s : PolicyScope) :
    Prop where
  carries : ∀ n rules, wp.rulesByContainer.lookup n = some rules →
    ∃ id, s.polByContainer.lookup n = some id ∧ Carries env wp rules s.world.maps id
  bound : ∀ c ∈ M, wp.names c.name = true →
    s.world.maps.cgToPolicy.lookup c.cgroupID = s.polByContainer.lookup c.name
  dropped : ∀ n, wp.names n = false → (∃ c ∈ M, c.name = n) → s.polByContainer.lookup n = none
  bindingKept : ∀ cg, (∀ c ∈ M, c.cgroupID ≠ cg) →
    s.world.maps.cgToPolicy.lookup cg = s₀.world.maps.cgToPolicy.lookup cg

section

variable {env : Env} {wp : WorkloadPolicy} {s₀ s₁ s : PolicyScope} {new : PolicyByContainer}
  {M : Set ContainerMeta} {n : ContainerName} {id : PolicyID}

theorem PolicyScope.lookup_applied :
    (s.applied wp).lookup n = if wp.names n then s.polByContainer.lookup n else none :=
  GoMap.lookup_filter

theorem PolicyScope.lookup_removed :
    (s.removed wp).lookup n = if wp.names n then none else s.polByContainer.lookup n := by
  unfold PolicyScope.removed
  rw [GoMap.lookup_filter]
  cases wp.names n <;> rfl

theorem PolicyScope.plan (hM : OneName M) (hinj : ∀ n n' id, s.polByContainer.lookup n = some id →
    s.polByContainer.lookup n' = some id → n = n') : Plan M (s.applied wp) (s.removed wp) where
  disjoint := by
    intro n id h
    rw [lookup_removed] at h
    rw [lookup_applied]
    split at h
    · exact absurd h (by simp)
    · next hn => rw [if_neg hn]
  inj := by
    intro n n' id h h'
    rw [lookup_removed] at h h'
    split at h
    · exact absurd h (by simp)
    · split at h'
      · exact absurd h' (by simp)
      · exact hinj n n' id h h'
  oneName := hM

/-! ## Between the loops -/

variable (h : SyncInv env wp s₀ {n | wp.names n = true} new s₁)

include h

theorem PolicyScope.lookup_record :
    (s₁.record new).polByContainer.lookup n
      = (new.lookup n).or (s₀.polByContainer.lookup n) := by
  rw [← h.synced.pol]
  exact GoMap.lookup_union

/-- An id recorded is one the policy had, or a new one of a name in the spec. -/
theorem SyncInv.recorded_from (hid : (s₁.record new).polByContainer.lookup n = some id) :
    s₀.polByContainer.lookup n = some id ∨
      wp.names n = true ∧ s₀.nextPolicyID ≤ id ∧ id < s₁.nextPolicyID := by
  rw [PolicyScope.lookup_record h] at hid
  cases hnew : new.lookup n with
  | none =>
    rw [hnew] at hid
    exact .inl hid
  | some d =>
    rw [hnew] at hid
    obtain rfl : d = id := Option.some.inj hid
    obtain ⟨hn, _, hlt⟩ := h.synced.newId n d hnew
    exact .inr ⟨hn, hlt⟩

theorem SyncInv.recorded_keeps (hid : s₀.polByContainer.lookup n = some id) :
    (s₁.record new).polByContainer.lookup n = some id := by
  rw [PolicyScope.lookup_record h]
  cases hnew : new.lookup n with
  | none => exact hid
  | some d => exact absurd (h.synced.newId n d hnew).2.1 (by simp [hid])

theorem SyncInv.recorded_of_not_names (hn : wp.names n = false) :
    (s₁.record new).polByContainer.lookup n = s₀.polByContainer.lookup n := by
  rw [PolicyScope.lookup_record h]
  cases hnew : new.lookup n with
  | none => rfl
  | some d => exact absurd (h.synced.newId n d hnew).1 (by simp [hn])

theorem SyncInv.recorded_inj (ha : Allocated s₀) {n' : ContainerName}
    (hid : (s₁.record new).polByContainer.lookup n = some id)
    (hid' : (s₁.record new).polByContainer.lookup n' = some id) : n = n' := by
  rw [PolicyScope.lookup_record h] at hid hid'
  -- old ids are below the first new one, and each kind is given out once
  cases hnew : new.lookup n with
  | some d =>
    rw [hnew] at hid
    obtain rfl : d = id := Option.some.inj hid
    cases hnew' : new.lookup n' with
    | some d' =>
      rw [hnew'] at hid'
      obtain rfl : d' = d := Option.some.inj hid'
      exact h.synced.newInj n n' d' hnew hnew'
    | none =>
      rw [hnew'] at hid'
      exact absurd (ha.lt n' d hid') (Nat.not_lt.mpr (h.synced.newId n d hnew).2.2.1)
  | none =>
    rw [hnew] at hid
    cases hnew' : new.lookup n' with
    | some d' =>
      rw [hnew'] at hid'
      obtain rfl : d' = id := Option.some.inj hid'
      exact absurd (ha.lt n d' hid) (Nat.not_lt.mpr (h.synced.newId n' d' hnew').2.2.1)
    | none =>
      rw [hnew'] at hid'
      exact ha.inj n n' id hid hid'

/-- Every name of the spec has an id that carries its rules. -/
theorem SyncInv.recorded_carries {rules : WorkloadPolicyRules}
    (hn : wp.rulesByContainer.lookup n = some rules) :
    ∃ id, (s₁.record new).polByContainer.lookup n = some id ∧
      Carries env wp rules s₁.world.maps id := by
  obtain ⟨id, hid, hc⟩ := h.synced.stored n (WorkloadPolicy.names_of_lookup hn) rules hn
  exact ⟨id, (PolicyScope.lookup_record h).trans hid, hc⟩

theorem SyncInv.recorded_settings (ha : Allocated s₀)
    (hid : (s₁.record new).polByContainer.lookup n = some id) :
    (s₁.world.maps.policySettings id).isSome := by
  cases hn : wp.names n with
  | true =>
    obtain ⟨rules, hr⟩ := Option.isSome_iff_exists.mp hn
    obtain ⟨id', hid', hc⟩ := h.recorded_carries hr
    obtain rfl : id' = id := Option.some.inj (hid'.symm.trans hid)
    simp [hc.settings]
  | false =>
    rw [h.recorded_of_not_names hn] at hid
    exact h.synced.settings_isSome ha h.inSpec (ha.lt n id hid) (ha.settings n id hid)

/-- What the second loop drops are the ids of names the spec no longer has. -/
theorem SyncInv.lookup_removed_iff :
    ((s₁.record new).removed wp).lookup n = some id ↔
      wp.names n = false ∧ s₀.polByContainer.lookup n = some id := by
  rw [PolicyScope.lookup_removed]
  cases hn : wp.names n with
  | true => simp
  | false => simp [h.recorded_of_not_names hn]

omit h

theorem SyncInv.lookup_applied_iff :
    ((s₁.record new).applied wp).lookup n = some id ↔
      wp.names n = true ∧ (s₁.record new).polByContainer.lookup n = some id := by
  rw [PolicyScope.lookup_applied]
  cases wp.names n <;> simp

theorem reconcileContainers_ends {podCache : GoMap PodID PodEntry} (ha : Allocated s₀)
    (hM : OneName (matched podCache wp.namespacedName)) :
    Ends (reconcileContainers env wp podCache s₀)
      (fun _ s => Reconciled env wp (matched podCache wp.namespacedName) s₀ s)
      (ReconcileFailed env wp (matched podCache wp.namespacedName) s₀) := by
  unfold reconcileContainers
  refine Ends.bind (((syncWorkloadPolicy_ends ha).and (Ends.self _)).mono (fun new s₁ h => ?_)
    (fun _ _ h => .inl h.1))
  refine Ends.bind (ends_ok.mpr (Ends.bind (ends_ok.mpr ?_)))
  exact (reconcilePods_ends (PolicyScope.plan hM
    fun _ _ _ => h.1.recorded_inj ha)).mono (fun _ _ h' => ⟨new, s₁, h.1, h'⟩)
    (fun _ _ h' => .inr ⟨new, s₁, h.2, h.1, h'⟩)

/-! ## The effect -/

variable {D : Set ContainerMeta}

theorem Partly.pol_of_names
    (hp : Partly M ((s₁.record new).applied wp) ((s₁.record new).removed wp) (s₁.record new) D s)
    (hn : wp.names n = true) :
    s.polByContainer.lookup n = (s₁.record new).polByContainer.lookup n := by
  refine hp.polKept n fun c _ _ => ?_
  rw [PolicyScope.lookup_removed, if_pos hn]

theorem Partly.pol_cases
    (hp : Partly M ((s₁.record new).applied wp) ((s₁.record new).removed wp) (s₁.record new) D s)
    (n : ContainerName) :
    s.polByContainer.lookup n = (s₁.record new).polByContainer.lookup n ∨
      s.polByContainer.lookup n = none ∧ ∃ c ∈ D, c.name = n ∧ wp.names n = false := by
  by_cases hex : ∃ c ∈ D, c.name = n ∧ ∃ id, ((s₁.record new).removed wp).lookup n = some id
  · obtain ⟨c, hc, rfl, id, hid⟩ := hex
    refine .inr ⟨(hp.gone c hc id hid).1, c, hc, rfl, ?_⟩
    rw [PolicyScope.lookup_removed] at hid
    cases hn : wp.names c.name with
    | false => rfl
    | true =>
      rw [hn] at hid
      exact absurd hid (by simp)
  · refine .inl (hp.polKept n fun c hc hname => Option.eq_none_iff_forall_ne_some.mpr ?_)
    exact fun id hid => hex ⟨c, hc, hname, id, hid⟩

variable (ha : Allocated s₀)

include ha

theorem SyncInv.effect (h : SyncInv env wp s₀ {n | wp.names n = true} new s₁)
    (hp : Partly M ((s₁.record new).applied wp) ((s₁.record new).removed wp) (s₁.record new) D s) :
    ReconcileEffect wp M s₀ D s := by
  have hnext : s.nextPolicyID = s₁.nextPolicyID := hp.next
  have hsub : ∀ n id, s.polByContainer.lookup n = some id →
      (s₁.record new).polByContainer.lookup n = some id := by
    intro n id hid
    rcases hp.pol_cases n with hk | ⟨hk, _⟩
    · exact hk.symm.trans hid
    · exact absurd hid (by simp [hk])
  -- ids the policy does not hold are not touched by the second loop
  have hsame : ∀ id, (∀ n, s₀.polByContainer.lookup n ≠ some id) →
      SameId id s₁.world.maps s.world.maps := by
    intro id hnot
    rcases hp.sweeping.first id with ⟨c, _, hid, _⟩ | hs
    · exact absurd (h.lookup_removed_iff.mp hid).2 (hnot c.name)
    · exact hs
  constructor
  case sub => exact hp.sub
  case next => exact hnext ▸ h.synced.next
  case polFrom =>
    intro n id hid
    rw [hnext]
    exact h.recorded_from (hsub n id hid)
  case polInj =>
    intro n n' id hid hid'
    exact h.recorded_inj ha (hsub n id hid) (hsub n' id hid')
  case polLost =>
    intro n id hid
    rcases hp.pol_cases n with hk | ⟨_, hk⟩
    · exact .inl (hk.trans (h.recorded_keeps hid))
    · exact .inr hk
  case gone =>
    intro c hc hn hsome
    obtain ⟨id, hid⟩ := Option.isSome_iff_exists.mp hsome
    exact hp.gone c hc id (h.lookup_removed_iff.mpr ⟨hn, hid⟩)
  case binding =>
    intro cg id hid
    rcases hp.sweeping.lookup cg with hl | ⟨c, _, _, _, hl⟩ | ⟨c, hc, hcg, id', hid', hl⟩
    · left
      rw [← hid, hl]
      exact congrArg (AList.lookup cg) h.synced.cgToPolicy.symm
    · exact absurd hid (by simp [hl])
    · obtain rfl : id' = id := Option.some.inj (hl.symm.trans hid)
      obtain ⟨hn, hrec⟩ := SyncInv.lookup_applied_iff.mp hid'
      exact .inr ⟨c, hc, hcg, (hp.pol_of_names hn).trans hrec⟩
  case settings =>
    intro n id hid
    have hrec := hsub n id hid
    have hkept : s.world.maps.policySettings id = s₁.world.maps.policySettings id := by
      refine hp.settingsKept id fun c hc hrem => ?_
      obtain rfl := h.recorded_inj ha hrec (h.recorded_keeps (h.lookup_removed_iff.mp hrem).2)
      exact absurd (hp.gone c hc id hrem).1 (by simp [hid])
    rw [hkept]
    exact h.recorded_settings ha hrec
  case kept =>
    intro id hlt hnot
    exact (h.synced.kept id hlt fun n _ => hnot n).trans (hsame id hnot)
  case fresh =>
    intro id hge
    rw [hnext] at hge
    refine (h.synced.fresh id hge).trans (hsame id fun n hid => ?_)
    exact absurd (Nat.lt_of_lt_of_le (ha.lt n id hid) h.synced.next) (Nat.not_lt.mpr hge)

theorem SyncFails.effect {e : ResolverErr} (h : SyncFails env wp s₀ e s) :
    ReconcileEffect wp M s₀ ∅ s where
  sub := by simp
  next := h.next
  polFrom := by
    intro n id hid
    rw [h.pol] at hid
    exact .inl hid
  polInj := by
    rw [h.pol]
    exact ha.inj
  polLost := by
    intro n id hid
    rw [h.pol]
    exact .inl hid
  gone := fun c hc => absurd hc (by simp)
  binding := by
    intro cg id hid
    rw [h.syncing.cgToPolicy] at hid
    exact .inl hid
  settings := by
    intro n id hid
    rw [h.pol] at hid
    exact h.settingsKept id (ha.lt n id hid) (ha.settings n id hid)
  kept := fun id hlt hnot => h.syncing.kept id hlt fun n hid => absurd hid (hnot n)
  fresh := h.fresh

theorem Reconciled.effect (h : Reconciled env wp M s₀ s) : ReconcileEffect wp M s₀ M s := by
  obtain ⟨new, s₁, hsync, hsweep⟩ := h
  exact hsync.effect ha (hsweep.swept.partly hsweep.subD hsweep.subB)

/-- A failed reconcile has done part of the work. A failure to write the rules has taken no policy
away. -/
theorem ReconcileFailed.effect {e : ResolverErr} (h : ReconcileFailed env wp M s₀ e s) :
    e.isBpf = true ∧
      ∃ D, ReconcileEffect wp M s₀ D s ∧ ((∃ k n b, e = .populate k n b) → D = ∅) := by
  rcases h with h | ⟨new, s₁, _, hsync, hf⟩
  · obtain ⟨n, b, rfl⟩ := h.isPopulate
    exact ⟨rfl, ∅, h.effect ha, fun _ => rfl⟩
  · obtain ⟨D, hp⟩ := hf.partly
    exact ⟨hf.isBpf, D, hsync.effect ha hp, fun ⟨k, n, b, he⟩ => absurd he (hf.notPopulate k n b)⟩

theorem Reconciled.enforces (h : Reconciled env wp M s₀ s) : Enforces env wp M s₀ s := by
  obtain ⟨new, s₁, hsync, hsweep⟩ := h
  have hp := hsweep.swept.partly hsweep.subD hsweep.subB
  constructor
  case carries =>
    intro n rules hr
    have hn := WorkloadPolicy.names_of_lookup hr
    obtain ⟨id, hid, hc⟩ := hsync.recorded_carries hr
    refine ⟨id, (hp.pol_of_names hn).trans hid, ?_⟩
    -- the id is none of those the second loop clears
    have hs : SameId id s₁.world.maps s.world.maps := by
      refine hsweep.swept.idKept id fun c _ hrem => ?_
      obtain ⟨hnot, hold⟩ := hsync.lookup_removed_iff.mp hrem
      have hname := hsync.recorded_inj ha hid (hsync.recorded_keeps hold)
      exact absurd (hname ▸ hn) (by simp [hnot])
    exact ⟨fun i => (hs.strings i).trans (hc.strings i), hc.valid, hs.settings.trans hc.settings⟩
  case bound =>
    intro c hc hn
    obtain ⟨rules, hr⟩ := Option.isSome_iff_exists.mp hn
    obtain ⟨id, hid, _⟩ := hsync.recorded_carries hr
    rw [hp.pol_of_names hn, hid]
    exact hsweep.swept.bound c hc id (SyncInv.lookup_applied_iff.mpr ⟨hn, hid⟩)
  case dropped =>
    rintro n hn ⟨c, hc, rfl⟩
    cases hid : s₀.polByContainer.lookup c.name with
    | none =>
      rcases hp.pol_cases c.name with hk | hk
      · rw [hk, hsync.recorded_of_not_names hn, hid]
      · exact hk.1
    | some id => exact (hp.gone c hc id (hsync.lookup_removed_iff.mpr ⟨hn, hid⟩)).1
  case bindingKept =>
    intro cg hcg
    rw [hsweep.swept.bindingKept cg (fun c hc h => absurd h (hcg c hc))
      fun c hc h => absurd h (hcg c hc)]
    exact congrArg (AList.lookup cg) hsync.synced.cgToPolicy

end

end RuntimeEnforcer
