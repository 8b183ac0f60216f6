import RuntimeEnforcer.Proof.Sound

/-!
# Who a bound cgroup belongs to

`Owned`: a bound cgroup is that of a cached container, and it is bound to the id the container's
name has under the policy its pod names. The pod loop of `ReconcileWP` takes ids away container by
container, so while it runs the second container of a name may be bound to an id that is no longer
recorded. If the loop returns, the second container has been visited too; if it fails in between,
nothing will ever visit it again. That, a failing `HandleWPDelete` and a container whose removal
failed are the ways to lose an owner.

Where every binding is owned, a reconcile that returns has bound what it must and unbound the rest
(`Converged`). And where a reconcile never drops a name that no cached container bears, the names
that hold ids are those of the last spec (`NoStale`).
-/

set_option autoImplicit false

namespace RuntimeEnforcer

open Lib

/-- Every bound cgroup has an owner. -/
def Owned (r : Resolver) : Prop :=
  ∀ cg id, r.bound cg = some id → ∃ p pm cid c, r.Cached p pm cid c ∧ c.cgroupID = cg ∧
    r.pol pm.policyKey c.name = some id

/-- Each name the spec drops is borne by at most one cached container of the matching pods. -/
def Resolver.SinglyBorne (r : Resolver) (wp : WorkloadPolicy) : Prop :=
  ∀ p pm cid c p' pm' cid' c', r.Cached p pm cid c → r.Cached p' pm' cid' c' →
    pm.policyKey = wp.namespacedName → pm'.policyKey = wp.namespacedName →
    c.name = c'.name → wp.names c.name = false → (r.pol wp.namespacedName c.name).isSome →
    p = p' ∧ cid = cid'

/-- The operation loses no owner: a reconcile drops names borne once, or does not fail among the
pods; deletions and removals do not fail. -/
def Op.KeepsOwners (env : Env) (r : Resolver) (op : Op) : Prop :=
  match op with
  | .reconcile wp => r.SinglyBorne wp ∨
    Ends (op.exec env r) (fun _ _ => True) (fun e _ => ∃ k n b, e = .populate k n b)
  | .addPod _ => True
  | _ => op.Succeeds env r

section

variable {env : Env} {R : List Report} {r r' : Resolver} {wp : WorkloadPolicy}
  {key : NamespacedPolicyName} {s : PolicyScope} {status : PolicyStatus} {D : Set ContainerMeta}

theorem Owned.init : Owned {} := fun _ _ h => absurd h (by simp [Resolver.bound, BpfMaps.empty])

theorem Owned.commit (ho : Owned r)
    (he : ReconcileEffect wp (matched r.podCache wp.namespacedName) (r.scope wp.namespacedName) D s)
    (hdone : ∀ c ∈ matched r.podCache wp.namespacedName, ∀ c' ∈ D, c'.name = c.name →
      wp.names c.name = false → (r.pol wp.namespacedName c.name).isSome → c ∈ D) :
    Owned (r.commit wp.namespacedName s status) := by
  intro cg id hid
  rcases he.binding cg id hid with hold | ⟨c, hc, hcg, hpol⟩
  · obtain ⟨p, pm, cid, c, hcached, rfl, hpol⟩ := ho cg id hold
    refine ⟨p, pm, cid, c, hcached, rfl, ?_⟩
    rw [Resolver.pol_commit]
    split
    · next hkey =>
      rw [hkey] at hpol
      have hc : c ∈ matched r.podCache wp.namespacedName :=
        mem_matched.mpr ⟨p, pm, cid, hcached, hkey⟩
      have hsome : (r.pol wp.namespacedName c.name).isSome := by simp [hpol]
      rcases he.polLost c.name id ((Resolver.scope_lookup _).trans hpol) with
        h | ⟨c', hc', hn, hnot⟩
      · exact h
      · -- the id is gone, so this container has been visited, and is not bound
        have hD := hdone c hc c' hc' hn hnot hsome
        have hgone := (he.gone c hD hnot (by rw [Resolver.scope_lookup]; exact hsome)).2
        exact absurd (hgone.symm.trans hid) (by simp)
    · exact hpol
  · obtain ⟨p, pm, cid, hcached, hkey⟩ := mem_matched.mp hc
    refine ⟨p, pm, cid, c, hcached, hcg, ?_⟩
    rw [Resolver.pol_commit, if_pos hkey]
    exact hpol

theorem Owned.commit_of_reconciled (hs : Sound R r) (ho : Owned r)
    (h : Reconciled env wp (matched r.podCache wp.namespacedName) (r.scope wp.namespacedName) s) :
    Owned (r.commit wp.namespacedName s status) :=
  ho.commit (h.effect hs.allocated) fun _ hc _ _ _ _ _ => hc

theorem Owned.reconcile (hR : Inventory R) (hs : Sound R r) (ho : Owned r)
    (hop : (Op.reconcile wp).KeepsOwners env r) : Owned ((Op.reconcile wp).step env r) := by
  refine Ends.after ?_
  rcases hop with hone | hpop
  · refine (reconcileWP_ends hs hR).mono ?_ ?_
    · rintro _ r' ⟨s, status, rfl, h⟩
      exact ho.commit_of_reconciled hs h
    · rintro e r' ⟨s, status, rfl, h⟩
      obtain ⟨_, D, he, _⟩ := h.effect hs.allocated
      refine ho.commit he fun c hc c' hc' hn hnot hsome => ?_
      -- the only one who bears the name
      obtain ⟨p, pm, cid, hcached, hkey⟩ := mem_matched.mp hc
      obtain ⟨p', pm', cid', hcached', hkey'⟩ := mem_matched.mp (he.sub hc')
      obtain ⟨rfl, rfl⟩ := hone p pm cid c p' pm' cid' c' hcached hcached' hkey hkey' hn.symm hnot
        hsome
      obtain ⟨entry, hentry, _, hlook⟩ := hcached
      obtain ⟨entry', hentry', _, hlook'⟩ := hcached'
      obtain rfl : entry = entry' := Option.some.inj (hentry.symm.trans hentry')
      obtain rfl : c = c' := Option.some.inj (hlook.symm.trans hlook')
      exact hc'
  · refine ((reconcileWP_ends hs hR).and hpop).mono ?_ ?_
    · rintro _ r' ⟨⟨s, status, rfl, h⟩, _⟩
      exact ho.commit_of_reconciled hs h
    · rintro e r' ⟨⟨s, status, rfl, h⟩, hpop⟩
      obtain ⟨_, D, he, hD⟩ := h.effect hs.allocated
      refine ho.commit he fun c _ c' hc' => ?_
      rw [hD hpop] at hc'
      exact absurd hc' (by simp)

theorem Owned.forget (ho : Owned r) {info : WpInfo} (hinfo : r.wpState.lookup key = some info)
    {w : World} (hd : Deleting info.polByContainer info.polByContainer.ids r.world.maps w.maps) :
    Owned (r.forget key w) := by
  intro cg id hid
  have hold : r.bound cg = some id := by
    rcases hd.lookup cg with hl | hl
    · exact hl.symm.trans hid
    · exact absurd (hl.1.symm.trans hid) (by simp)
  obtain ⟨p, pm, cid, c, hcached, hcg, hpol⟩ := ho cg id hold
  refine ⟨p, pm, cid, c, hcached, hcg, ?_⟩
  rw [Resolver.pol_forget, if_neg]
  · exact hpol
  · -- an id of the policy itself is bound to nothing
    intro hkey
    have hmem : id ∈ info.polByContainer.ids :=
      (Resolver.mem_ids hinfo).mpr ⟨c.name, hkey ▸ hpol⟩
    exact (hd.gone id hmem).1 cg hid

theorem AddEffect.owned {pod : PodInput} (he : AddEffect r pod r') (ho : Owned r) : Owned r' := by
  intro cg id hid
  rcases he.binding cg id hid with hold | hnew
  · obtain ⟨p, pm, cid, c, hcached, hcg, hpol⟩ := ho cg id hold
    exact ⟨p, pm, cid, c, he.cachedKeeps p pm cid c hcached, hcg,
      (Resolver.pol_congr he.wpState _ _).trans hpol⟩
  · exact hnew

theorem RemoveEffect.owned {podID : PodID} {cid : ContainerID} (he : RemoveEffect r podID cid r')
    (hu : RemoveUnbinds r podID cid r') (ho : Owned r) : Owned r' := by
  intro cg id hid
  obtain ⟨p, pm, cid', c, hcached, rfl, hpol⟩ := ho cg id (he.binding cg id hid)
  refine ⟨p, pm, cid', c, he.cachedKeeps p pm cid' c hcached ?_, rfl,
    (Resolver.pol_congr he.wpState _ _).trans hpol⟩
  -- the removed container is unbound
  rintro ⟨rfl, rfl⟩
  exact absurd ((hu.unbound pm c hcached).symm.trans hid) (by simp)

theorem Owned.step (hR : Inventory R) (hs : Sound R r) (ho : Owned r) {op : Op}
    (hin : ∀ x ∈ op.reports, x ∈ R) (hop : op.KeepsOwners env r) : Owned (op.step env r) := by
  cases op with
  | reconcile wp => exact ho.reconcile hR hs hop
  | delete o =>
    rcases Op.Succeeds.delete hs hop with ⟨_, hstep⟩ | ⟨info, w, hinfo, hstep, hd⟩
    · rw [hstep]
      exact ho
    · rw [hstep]
      exact ho.forget hinfo hd
  | addPod pod =>
    refine Ends.after ((addPodContainerFromNri_ends (hs.oneName_podMetas hR hin)).mono ?_ ?_)
    · exact fun _ _ h => h.1.owned ho
    · exact fun _ _ h => h.1.owned ho
  | removePod podID cid =>
    obtain ⟨he, hu⟩ := Op.Succeeds.removePod hop
    exact he.owned hu ho

theorem Op.Succeeds.keepsOwners (hR : Inventory R) (hs : Sound R r) {op : Op}
    (h : op.Succeeds env r) : op.KeepsOwners env r := by
  cases op with
  | reconcile wp =>
    refine .inr (((reconcileWP_ends hs hR).and h).mono (fun _ _ _ => trivial) ?_)
    rintro e r' ⟨⟨s, status, _, hf⟩, hne⟩
    exact absurd (hf.effect hs.allocated).1 (by simp [hne])
  | delete o => exact h
  | addPod pod => trivial
  | removePod podID cid => exact h

/-! ## After a failure -/

/-- No BPF operation fails that could lose an owner. A reconcile may fail while it writes the
rules; it may fail among the pods if the names it drops are borne once. -/
def Op.Orderly (env : Env) (r : Resolver) (op : Op) : Prop :=
  match op with
  | .reconcile wp => r.SinglyBorne wp ∨
    Quiet env.toManagerEnv (after (syncWorkloadPolicy env wp (r.scope wp.namespacedName))).world
      (op.step env r).world
  | .addPod _ => True
  | _ => Quiet env.toManagerEnv r.world (op.step env r).world

/-- Every cached container of a matching pod has what the spec says. -/
def Converged (r : Resolver) (wp : WorkloadPolicy) : Prop :=
  ∀ p pm cid c, r.Cached p pm cid c → pm.policyKey = wp.namespacedName →
    if wp.names c.name then
      ∃ id, r.pol wp.namespacedName c.name = some id ∧ r.bound c.cgroupID = some id
    else r.bound c.cgroupID = none

/-- Nothing stands in the way of the second loop if the containers it binds are unbound, or bound
to their own ids. -/
theorem SyncInv.bindable (hs : Sound R r) {new : PolicyByContainer}
    (h : SyncInv env wp (r.scope wp.namespacedName) {n | wp.names n = true} new s)
    (hfree : ∀ c ∈ matched r.podCache wp.namespacedName, wp.names c.name = true → ∀ d,
      r.bound c.cgroupID = some d → r.pol wp.namespacedName c.name = some d) :
    Bindable (matched r.podCache wp.namespacedName) ((s.record new).applied wp) s.world.maps := by
  intro c hc id hid
  obtain ⟨hn, hrec⟩ := SyncInv.lookup_applied_iff.mp hid
  constructor
  · rcases h.recorded_from hrec with hold | ⟨_, hge, _⟩
    · exact hs.pos _ _ _ (Resolver.scope_lookup c.name ▸ hold)
    · exact Nat.lt_of_lt_of_le hs.nextPos hge
  · have hsame : s.world.maps.cgToPolicy = r.world.maps.cgToPolicy := h.synced.cgToPolicy
    rw [hsame]
    cases hb : r.world.maps.cgToPolicy.lookup c.cgroupID with
    | none => exact .inl rfl
    | some d =>
      have hkept := h.recorded_keeps ((Resolver.scope_lookup _).trans (hfree c hc hn d hb))
      exact .inr (hkept.symm.trans hrec)

theorem Owned.free (hR : Inventory R) (hs : Sound R r) (ho : Owned r) {c : ContainerMeta}
    {d : PolicyID} (hc : c ∈ matched r.podCache key) (hb : r.bound c.cgroupID = some d) :
    r.pol key c.name = some d := by
  -- the owner is this container
  obtain ⟨p, pm, cid, hcached, rfl⟩ := mem_matched.mp hc
  obtain ⟨p', pm', cid', c', hcached', hcg, hpol⟩ := ho c.cgroupID d hb
  obtain ⟨rfl, rfl, rfl, rfl⟩ := hs.eq_of_cgroup hR hcached' hcached hcg
  exact hpol

theorem Op.Orderly.keepsOwners (hR : Inventory R) (hs : Sound R r) (ho : Owned r) {op : Op}
    (h : op.Orderly env r) : op.KeepsOwners env r := by
  cases op with
  | reconcile wp =>
    rcases h with hone | hq
    · exact .inl hone
    · have hend : Ends (reconcileWP env wp r) _ _ := (reconcileWP_ends hs hR).and (Ends.self _)
      refine .inr (hend.mono (fun _ _ _ => trivial) ?_)
      rintro e r' ⟨⟨s, status, rfl, hf⟩, hres⟩
      rcases hf with hsync | ⟨new, s₁, hs₁, hsync, hsweep⟩
      · obtain ⟨n, b, he⟩ := hsync.isPopulate
        exact ⟨_, n, b, he⟩
      · -- among the pods only a failing call stops the loop
        refine absurd ?_ (hsweep.fails.fault
          (hsync.bindable hs fun c hc _ d hd => ho.free hR hs hc hd))
        have hstep : (Op.reconcile wp).step env r = _ := after_of_error hres
        rw [hstep, after_of_ok hs₁] at hq
        exact hq
  | delete o =>
    have hend : Ends (handleWPDelete env o r) _ _ := (handleWPDelete_ends hs).and (Ends.self _)
    refine hend.mono (fun _ _ _ => trivial) ?_
    rintro e r' ⟨⟨info, w, hinfo, rfl, hf⟩, hres⟩
    have hq : Quiet env.toManagerEnv r.world (after (handleWPDelete env o r)).world := h
    rw [after_of_error hres] at hq
    refine absurd hq (hf.fails.fault fun id hid => ?_)
    obtain ⟨n, hn⟩ := (Resolver.mem_ids hinfo).mp hid
    exact hs.pos _ _ _ hn
  | addPod pod => trivial
  | removePod podID cid =>
    have hend : Ends (removePodContainerFromNri env podID cid r) _ _ :=
      removePodContainerFromNri_ends.and (Ends.self _)
    refine hend.mono (fun _ _ _ => trivial) ?_
    rintro e r' ⟨⟨_, _, hnq⟩, hres⟩
    have hq : Quiet env.toManagerEnv r.world
        (after (removePodContainerFromNri env podID cid r)).world := h
    rw [after_of_error hres] at hq
    exact absurd hq hnq

theorem Owned.run {ops : List Op} (hR : Inventory R) (hin : ∀ x ∈ ops.flatMap Op.reports, x ∈ R)
    (hs : Sound R r) (ho : Owned r) (hord : Along (Op.step env) (Op.Orderly env) ops r) :
    Owned (Lib.run (Op.step env) ops r) := by
  refine (run_inv (I := fun r => Sound R r ∧ Owned r) ?_ ⟨hs, ho⟩ (hord.and (along_reports hin))).2
  rintro r op ⟨hs, ho⟩ ⟨hop, hin⟩
  exact ⟨hs.step hR hin, ho.step hR hs hin (hop.keepsOwners hR hs ho)⟩

theorem Reconciled.bound_of_names (hs : Sound R r)
    (h : Reconciled env wp (matched r.podCache wp.namespacedName) (r.scope wp.namespacedName) s)
    {c : ContainerMeta} (hc : c ∈ matched r.podCache wp.namespacedName)
    (hn : wp.names c.name = true) :
    ∃ id, (r.commit wp.namespacedName s status).pol wp.namespacedName c.name = some id ∧
      (r.commit wp.namespacedName s status).bound c.cgroupID = some id := by
  have henf := h.enforces hs.allocated
  obtain ⟨rules, hr⟩ := Option.isSome_iff_exists.mp hn
  obtain ⟨id, hid, _⟩ := henf.carries c.name rules hr
  refine ⟨id, ?_, (henf.bound c hc hn).trans hid⟩
  rw [Resolver.pol_commit, if_pos rfl]
  exact hid

theorem Owned.converged (hR : Inventory R) (hs : Sound R r) (ho : Owned r)
    (h : Reconciled env wp (matched r.podCache wp.namespacedName) (r.scope wp.namespacedName) s) :
    Converged (r.commit wp.namespacedName s status) wp := by
  intro p pm cid c hcached hkey
  have hc : c ∈ matched r.podCache wp.namespacedName := mem_matched.mpr ⟨p, pm, cid, hcached, hkey⟩
  cases hn : wp.names c.name with
  | true => exact h.bound_of_names hs hc hn
  | false =>
    simp only [Bool.false_eq_true, if_false]
    refine Option.eq_none_iff_forall_ne_some.mpr fun id hid => ?_
    -- an owner would be this container, whose name holds no id any more
    have ho' : Owned (r.commit wp.namespacedName s status) := ho.commit_of_reconciled hs h
    have hs' : Sound R (r.commit wp.namespacedName s status) := hs.commit (h.effect hs.allocated)
    have hpol := ho'.free hR hs' hc hid
    rw [Resolver.pol_commit, if_pos rfl,
      (h.enforces hs.allocated).dropped c.name hn ⟨c, hc, rfl⟩] at hpol
    exact absurd hpol (by simp)

theorem reconcileWP_of_faultless (hR : Inventory R) (hs : Sound R r)
    (henv : ∀ t, env.fault t = none) (hacc : wp.Acceptable env)
    (hfree : ∀ c ∈ matched r.podCache wp.namespacedName, wp.names c.name = true → ∀ d,
      r.bound c.cgroupID = some d → r.pol wp.namespacedName c.name = some d) :
    ∃ s status, reconcileWP env wp r = .ok () (r.commit wp.namespacedName s status) ∧
      Reconciled env wp (matched r.podCache wp.namespacedName) (r.scope wp.namespacedName) s := by
  have hend : Ends (reconcileWP env wp r) _ _ := reconcileWP_ends hs hR
  cases hres : reconcileWP env wp r with
  | ok _ r' =>
    obtain ⟨s, status, rfl, h⟩ := hend.of_ok hres
    exact ⟨s, status, rfl, h⟩
  | error e r' =>
    obtain ⟨s, status, rfl, hf⟩ := hend.of_error hres
    rcases hf with hsync | ⟨new, s₁, _, hsync, hsweep⟩
    · exact absurd (fun t _ _ => henv t) (hsync.fails.fault hacc)
    · exact absurd (fun t _ _ => henv t) (hsweep.fails.fault (hsync.bindable hs hfree))

end

/-- **A reconcile that returns has converged**, in every run without an error that loses an
owner. -/
theorem reconcileWP_converges {env : Env} {ops : List Op} {wp : WorkloadPolicy} {r' : Resolver}
    (hinv : Inventory (ops.flatMap Op.reports))
    (hord : Along (Op.step env) (Op.Orderly env) ops {})
    (hok : reconcileWP env wp (run (Op.step env) ops {}) = .ok () r') : Converged r' wp := by
  have hs : Sound (ops.flatMap Op.reports) (run (Op.step env) ops {}) :=
    Sound.init.run hinv fun _ hx => hx
  have ho : Owned (run (Op.step env) ops {}) :=
    Owned.init.run hinv (fun _ hx => hx) Sound.init hord
  obtain ⟨s, status, rfl, h⟩ := (reconcileWP_ends hs hinv).of_ok hok
  exact ho.converged hinv hs h

namespace Sample

/-- Two pods are reported before the policy, and the first attempt to write its rules fails. -/
def retried : List Op :=
  [.addPod (pod "a" "c1" 7), .addPod (pod "b" "c2" 8), .reconcile (webApp .protect [])]

theorem reconcileWP_converges_retried :
    ∃ r', reconcileWP (.failsAt 2) (webApp .protect []) (run (Op.step (.failsAt 2)) retried {})
      = .ok () r' ∧ Converged r' (webApp .protect []) := by
  have hord : Along (Op.step (.failsAt 2)) (Op.Orderly (.failsAt 2)) retried {} :=
    ⟨trivial, trivial, .inr fun _ h₁ h₂ => absurd h₂ (Nat.not_lt.mpr h₁), trivial⟩
  obtain ⟨_, hok⟩ := (isOk_iff (r := reconcileWP (.failsAt 2) (webApp .protect [])
    (run (Op.step (.failsAt 2)) retried {}))).mp (by decide +kernel)
  exact ⟨_, hok, reconcileWP_converges (by decide) hord hok⟩

/-- Two pods are bound, the spec drops their container, and the reconcile fails between them. -/
def halfway : List Op :=
  [.reconcile (webApp .protect []), .addPod (pod "a" "c1" 7), .addPod (pod "b" "c2" 8),
    .reconcile webNone]

/-- The first pod has taken the name out of the policy's map, so the retry finds nothing to
remove: it returns, and leaves the second pod bound to an id without settings. -/
theorem stale_binding_after_retry :
    ∃ r', reconcileWP (.failsAt 18) webNone (run (Op.step (.failsAt 18)) halfway {}) = .ok () r' ∧
      r'.bound 7 = some 1 ∧ r'.world.maps.policySettings 1 = none ∧ ¬ Converged r' webNone := by
  obtain ⟨_, hok⟩ := (isOk_iff (r := reconcileWP (.failsAt 18) webNone
    (run (Op.step (.failsAt 18)) halfway {}))).mp (by decide +kernel)
  have hshow : (after (reconcileWP (.failsAt 18) webNone
      (run (Op.step (.failsAt 18)) halfway {}))).shows "a" "c1"
        = some (web.namespacedName, ⟨"app", 7⟩) := by decide +kernel
  refine ⟨_, hok, by decide +kernel, by decide +kernel, fun h => ?_⟩
  obtain ⟨pm, hcached, hkey⟩ := Resolver.cached_of_shows hshow
  exact absurd (h "a" pm "c1" ⟨"app", 7⟩ hcached hkey) (by decide +kernel)

end Sample

/-! ## Names the spec has dropped -/

/-- A reconcile drops a name only while a container that bears it is cached. -/
def Op.Covered (r : Resolver) : Op → Prop
  | .reconcile wp => ∀ n, (r.pol wp.namespacedName n).isSome → wp.names n = false →
    ∃ p pm cid c, r.Cached p pm cid c ∧ pm.policyKey = wp.namespacedName ∧ c.name = n
  | _ => True

theorem Op.covered_reconcile {r : Resolver} {wp : WorkloadPolicy} :
    (Op.reconcile wp).Covered r ↔
      ∀ e ∈ (r.infoOf wp.namespacedName).polByContainer.entries, wp.names e.1 = false →
        ∃ pod ∈ r.podCache.entries, pod.2.podMeta.policyKey = wp.namespacedName ∧
          ∃ c ∈ pod.2.containers.entries, c.2.name = e.1 := by
  constructor
  · intro h e he hn
    have hsome : (r.pol wp.namespacedName e.1).isSome := by
      rw [r.pol_eq_getD]
      exact Option.isSome_iff_exists.mpr ⟨e.2, GoMap.mem_entries.mp he⟩
    obtain ⟨p, pm, cid, c, ⟨pod, hpod, rfl, hc⟩, hkey, hname⟩ := h e.1 hsome hn
    exact ⟨⟨p, pod⟩, GoMap.mem_entries.mpr hpod, hkey, ⟨cid, c⟩, GoMap.mem_entries.mpr hc, hname⟩
  · intro h n hsome hn
    rw [r.pol_eq_getD] at hsome
    obtain ⟨id, hid⟩ := Option.isSome_iff_exists.mp hsome
    obtain ⟨⟨p, pod⟩, hpod, hkey, ⟨cid, c⟩, hc, hname⟩ := h ⟨n, id⟩ (GoMap.mem_entries.mpr hid) hn
    exact ⟨p, pod.podMeta, cid, c, ⟨pod, GoMap.mem_entries.mp hpod, rfl, GoMap.mem_entries.mp hc⟩,
      hkey, hname⟩

instance (r : Resolver) : (op : Op) → Decidable (op.Covered r)
  | .reconcile _ => decidable_of_iff _ Op.covered_reconcile.symm
  | .delete _ => .isTrue trivial
  | .addPod _ => .isTrue trivial
  | .removePod _ _ => .isTrue trivial

/-- Every bound cgroup is that of a cached container the last spec of its policy names. -/
def NoStale (n : Node) : Prop :=
  ∀ cg id, n.resolver.bound cg = some id → ∃ p pm cid c wp, n.resolver.Cached p pm cid c ∧
    c.cgroupID = cg ∧ n.specs pm.policyKey = some wp ∧ wp.names c.name = true

/-- Only names of the last spec hold ids. -/
def Named (n : Node) : Prop :=
  ∀ k c id, n.resolver.pol k c = some id → ∃ wp, n.specs k = some wp ∧ wp.names c = true

section

variable {env : Env} {R : List Report} {n : Node}

theorem Owned.noStale (ho : Owned n.resolver) (hn : Named n) : NoStale n := by
  intro cg id hid
  obtain ⟨p, pm, cid, c, hcached, hcg, hpol⟩ := ho cg id hid
  obtain ⟨wp, hwp, hname⟩ := hn _ _ _ hpol
  exact ⟨p, pm, cid, c, wp, hcached, hcg, hwp, hname⟩

theorem Named.init : Named {} := fun _ _ _ h => absurd h (by simp [Resolver.pol])

theorem Named.congr {n n' : Node} (hn : Named n) (hw : n'.resolver.wpState = n.resolver.wpState)
    (hsp : n'.specs = n.specs) : Named n' := by
  intro k c id hid
  rw [Resolver.pol_congr hw] at hid
  rw [hsp]
  exact hn k c id hid

theorem Named.step (hR : Inventory R) (hs : Sound R n.resolver) (hn : Named n) {op : Op}
    (hin : ∀ x ∈ op.reports, x ∈ R) (hop : op.Succeeds env n.resolver)
    (hcov : op.Covered n.resolver) : Named (n.step env op) := by
  cases op with
  | reconcile wp =>
    obtain ⟨s, status, hstep, h⟩ := Op.Succeeds.reconcile hR hs hop
    intro k c id hid
    simp only [Node.step, hstep, Resolver.pol_commit] at hid
    simp only [Node.step, Op.specs, Function.update_apply]
    split at hid
    · next hk =>
      refine ⟨wp, if_pos hk, Bool.not_eq_false _ ▸ fun hnot => ?_⟩
      -- a name outside the spec was there before, so some container bears it, and it is dropped
      rcases (h.effect hs.allocated).polFrom c id hid with hold | ⟨hname, _⟩
      · rw [Resolver.scope_lookup] at hold
        obtain ⟨p, pm, cid, m, hcached, hkey, hm⟩ := hcov c (by simp [hold]) hnot
        have hM : m ∈ matched n.resolver.podCache wp.namespacedName :=
          mem_matched.mpr ⟨p, pm, cid, hcached, hkey⟩
        rw [(h.enforces hs.allocated).dropped c hnot ⟨m, hM, hm⟩] at hid
        exact absurd hid (by simp)
      · exact absurd hname (by simp [hnot])
    · next hk =>
      rw [if_neg hk]
      exact hn k c id hid
  | delete o =>
    intro k c id hid
    have hpol : n.resolver.pol k c = some id ∧ k ≠ o.namespacedName := by
      rcases Op.Succeeds.delete hs hop with ⟨hnone, hstep⟩ | ⟨info, w, _, hstep, _⟩
      · simp only [Node.step, hstep] at hid
        refine ⟨hid, ?_⟩
        rintro rfl
        simp [Resolver.pol, hnone] at hid
      · simp only [Node.step, hstep, Resolver.pol_forget] at hid
        split at hid
        · exact absurd hid (by simp)
        · next hk => exact ⟨hid, hk⟩
    simp only [Node.step, Op.specs, Function.update_apply, if_neg hpol.2]
    exact hn k c id hpol.1
  | addPod pod => exact hn.congr (Op.Succeeds.addPod hR hs hin hop).1.wpState rfl
  | removePod podID cid => exact hn.congr (Op.Succeeds.removePod hop).1.wpState rfl

theorem Owned.run_succeeds {ops : List Op} (hR : Inventory R)
    (hin : ∀ x ∈ ops.flatMap Op.reports, x ∈ R) (hs : Sound R n.resolver) (ho : Owned n.resolver)
    (hops : Along (Node.step env) (fun n op => op.Succeeds env n.resolver) ops n) :
    Sound R (Lib.run (Node.step env) ops n).resolver ∧
      Owned (Lib.run (Node.step env) ops n).resolver := by
  refine run_inv (I := fun n => Sound R n.resolver ∧ Owned n.resolver) ?_ ⟨hs, ho⟩
    (hops.and (along_reports hin))
  rintro n op ⟨hs, ho⟩ ⟨hop, hin⟩
  exact ⟨hs.step hR hin, ho.step hR hs hin (hop.keepsOwners hR hs)⟩

theorem Named.run {ops : List Op} (hR : Inventory R) (hin : ∀ x ∈ ops.flatMap Op.reports, x ∈ R)
    (hs : Sound R n.resolver) (hn : Named n)
    (hops : Along (Node.step env) (fun n op => op.Succeeds env n.resolver ∧ op.Covered n.resolver)
      ops n) : Named (Lib.run (Node.step env) ops n) := by
  refine (run_inv (I := fun n => Sound R n.resolver ∧ Named n) ?_ ⟨hs, hn⟩
    (hops.and (along_reports hin))).2
  rintro n op ⟨hs, hn⟩ ⟨⟨hop, hcov⟩, hin⟩
  exact ⟨hs.step hR hin, hn.step hR hs hin hop hcov⟩

end

/-- **No stale enforcement**, in every run whose reconciles drop a name only while a container
that bears it is cached. -/
theorem noStale_run {env : Env} {ops : List Op} (hinv : Inventory (ops.flatMap Op.reports))
    (hops : Along (Node.step env) (fun n op => op.Succeeds env n.resolver ∧ op.Covered n.resolver)
      ops {}) : NoStale (run (Node.step env) ops {}) := by
  have ho := (Owned.run_succeeds hinv (fun _ hx => hx) Sound.init Owned.init
    (hops.mono fun _ _ h => h.1)).2
  exact ho.noStale (Named.run hinv (fun _ hx => hx) Sound.init Named.init hops)

namespace Sample

/-- The pod is bound, then its container is dropped from the spec. -/
def dropped : List Op :=
  [.reconcile (webApp .protect []), .addPod (pod "a" "c1" 7), .reconcile webNone]

theorem noStale_run_dropped : NoStale (run (Node.step .calm) dropped {}) :=
  noStale_run (by decide) (by decide +kernel)

/-- The spec drops the container while no pod is there; the pod appears afterwards. -/
def droppedUnseen : List Op :=
  [.reconcile (webApp .protect []), .reconcile webNone, .addPod (pod "a" "c1" 7)]

/-- No loop visits the name, so its id stays recorded, and the new pod is bound to it. -/
theorem stale_after_unseen_drop :
    Inventory (droppedUnseen.flatMap Op.reports) ∧
      Along (Node.step .calm) (fun n op => op.Succeeds .calm n.resolver) droppedUnseen {} ∧
      ¬ NoStale (run (Node.step .calm) droppedUnseen {}) := by
  refine ⟨by decide, by decide +kernel, fun h => ?_⟩
  obtain ⟨_, pm, _, c, wp, _, _, hwp, hn⟩ := h 7 1 (by decide +kernel)
  -- whichever policy the pod names, its last spec is the empty one
  have hspec : (if pm.policyKey = webNone.namespacedName then some webNone else
      if pm.policyKey = (webApp .protect []).namespacedName then some (webApp .protect [])
      else none) = some wp := by
    simpa [droppedUnseen, run, Node.step, Op.specs, Function.update_apply] using hwp
  split at hspec
  · obtain rfl := Option.some.inj hspec
    exact absurd hn (by simp [WorkloadPolicy.names, webNone])
  · next hne =>
    have hne' : ¬ pm.policyKey = (webApp .protect []).namespacedName := hne
    rw [if_neg hne'] at hspec
    exact absurd hspec (by simp)

end Sample

end RuntimeEnforcer
