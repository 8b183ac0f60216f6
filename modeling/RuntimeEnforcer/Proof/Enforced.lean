import RuntimeEnforcer.Proof.Owned

/-!
# No lost protection

The other half of the invariant, in runs whose calls all succeed. A policy that is known has an id
with the rules of its last spec for every container the spec names (`live`), and a cached container
whose name has an id is bound to it (`bound`), whichever of the two was there first. Two policies
never share an id and two containers never share a cgroup, so what an operation does to its own ids
and cgroups is all there is to check.
-/

set_option autoImplicit false

namespace RuntimeEnforcer

open Lib

/-- What is known is written, and what is written is bound. -/
structure Enforced (env : Env) (n : Node) : Prop where
  live : ∀ k, (n.resolver.wpState.lookup k).isSome → ∃ wp, n.specs k = some wp ∧
    wp.namespacedName = k ∧ ∀ name rules, wp.rulesByContainer.lookup name = some rules →
      ∃ id, n.resolver.pol k name = some id ∧ Carries env wp rules n.resolver.world.maps id
  bound : ∀ p pm cid c, n.resolver.Cached p pm cid c → ∀ id,
    n.resolver.pol pm.policyKey c.name = some id → n.resolver.bound c.cgroupID = some id

/-- Every cached container that the last spec of its policy names is bound to a policy id that
holds the container's allow-list, the spec's mode and the container's foreign-root option. -/
def Protected (n : Node) : Prop :=
  ∀ p pm cid c, n.resolver.Cached p pm cid c → (n.resolver.wpState.lookup pm.policyKey).isSome →
    ∃ wp, n.specs pm.policyKey = some wp ∧
      ∀ rules, wp.rulesByContainer.lookup c.name = some rules →
        ∃ id, n.resolver.bound c.cgroupID = some id ∧
          Holds n.resolver.world.maps id rules.allowed ∧
          n.resolver.world.maps.policySettings id
            = some (settingsOf wp.mode rules.allowForeignRootExec)

section

variable {env : Env} {R : List Report} {n : Node}

theorem Enforced.isProtected (h : Enforced env n) : Protected n := by
  intro p pm cid c hcached hlive
  obtain ⟨wp, hwp, _, hrules⟩ := h.live _ hlive
  refine ⟨wp, hwp, fun rules hr => ?_⟩
  obtain ⟨id, hid, hc⟩ := hrules c.name rules hr
  exact ⟨id, h.bound p pm cid c hcached id hid, holds_of_newClass hc.valid hc.strings, hc.settings⟩

theorem Enforced.init : Enforced env {} where
  live := fun _ h => absurd h (by simp)
  bound := fun _ _ _ _ _ _ h => absurd h (by simp [Resolver.pol])

theorem Carries.of_sameId {wp : WorkloadPolicy} {rules : WorkloadPolicyRules} {m₀ m : BpfMaps}
    {id : PolicyID} (h : Carries env wp rules m₀ id) (hs : SameId id m₀ m) :
    Carries env wp rules m id :=
  ⟨fun i => (hs.strings i).trans (h.strings i), h.valid, hs.settings.trans h.settings⟩

theorem Enforced.reconcile (hR : Inventory R) (hs : Sound R n.resolver) (h : Enforced env n)
    {wp : WorkloadPolicy} (hop : (Op.reconcile wp).Succeeds env n.resolver) :
    Enforced env (n.step env (.reconcile wp)) := by
  obtain ⟨s, status, hstep, hrec⟩ := Op.Succeeds.reconcile hR hs hop
  have henf := hrec.enforces hs.allocated
  have heff := hrec.effect hs.allocated
  have hres : (n.step env (.reconcile wp)).resolver
      = n.resolver.commit wp.namespacedName s status := hstep
  have hspecs : (n.step env (.reconcile wp)).specs
      = Function.update n.specs wp.namespacedName (some wp) := rfl
  constructor
  case live =>
    intro k hk
    rw [hspecs, Function.update_apply]
    rw [hres] at hk ⊢
    simp only [Resolver.pol_commit]
    by_cases hkey : k = wp.namespacedName
    · simp only [if_pos hkey]
      exact ⟨wp, rfl, hkey.symm, henf.carries⟩
    · simp only [if_neg hkey]
      have hold : (n.resolver.wpState.lookup k).isSome := by
        simpa [Resolver.commit, GoMap.lookup_insert_eq, hkey] using hk
      obtain ⟨wp', hwp', hname, hrules⟩ := h.live k hold
      refine ⟨wp', hwp', hname, fun name rules hr => ?_⟩
      obtain ⟨id, hid, hc⟩ := hrules name rules hr
      -- the id is another policy's
      refine ⟨id, hid, hc.of_sameId (heff.kept id (hs.lt _ _ _ hid) fun name' hid' => hkey ?_)⟩
      exact (hs.inj _ _ _ _ id hid (Resolver.scope_lookup name' ▸ hid')).1
  case bound =>
    intro p pm cid c hcached id hid
    rw [hres] at hcached hid ⊢
    have hcached' : n.resolver.Cached p pm cid c := hcached
    rw [Resolver.pol_commit] at hid
    by_cases hkey : pm.policyKey = wp.namespacedName
    · rw [if_pos hkey] at hid
      have hM := mem_matched.mpr ⟨p, pm, cid, hcached', hkey⟩
      cases hname : wp.names c.name with
      | true => exact (henf.bound c hM hname).trans hid
      | false =>
        rw [henf.dropped c.name hname ⟨c, hM, rfl⟩] at hid
        exact absurd hid (by simp)
    · rw [if_neg hkey] at hid
      -- the cgroup is none of the matching pods'
      refine (henf.bindingKept c.cgroupID fun c' hc' hcg => ?_).trans
        (h.bound p pm cid c hcached' id hid)
      obtain ⟨p', pm', cid', hc', hkey'⟩ := mem_matched.mp hc'
      obtain ⟨_, rfl, _⟩ := hs.eq_of_cgroup hR hc' hcached' hcg
      exact hkey hkey'

theorem Enforced.delete (hs : Sound R n.resolver) (h : Enforced env n) {o : ObjectMeta}
    (hop : (Op.delete o).Succeeds env n.resolver) : Enforced env (n.step env (.delete o)) := by
  have hspecs : (n.step env (.delete o)).specs
      = Function.update n.specs o.namespacedName none := rfl
  rcases Op.Succeeds.delete hs hop with ⟨hnone, hstep⟩ | ⟨info, w, hinfo, hstep, hd⟩
  · have hres : (n.step env (.delete o)).resolver = n.resolver := hstep
    constructor
    case live =>
      intro k hk
      rw [hres] at hk ⊢
      have hkey : k ≠ o.namespacedName := by
        rintro rfl
        simp [hnone] at hk
      rw [hspecs, Function.update_apply, if_neg hkey]
      exact h.live k hk
    case bound =>
      rw [hres]
      exact h.bound
  · have hres : (n.step env (.delete o)).resolver = n.resolver.forget o.namespacedName w := hstep
    -- an id of another policy is none of those deleted
    have hother : ∀ k name id, k ≠ o.namespacedName → n.resolver.pol k name = some id →
        id ∉ info.polByContainer.ids := by
      intro k name id hk hid hmem
      obtain ⟨name', hid'⟩ := (Resolver.mem_ids hinfo).mp hmem
      exact hk (hs.inj _ _ _ _ id hid hid').1
    constructor
    case live =>
      intro k hk
      rw [hspecs, Function.update_apply]
      rw [hres] at hk ⊢
      have hkey : k ≠ o.namespacedName := by
        rintro rfl
        simp [Resolver.forget] at hk
      have hold : (n.resolver.wpState.lookup k).isSome := by
        simpa [Resolver.forget, GoMap.lookup_erase_eq, hkey] using hk
      simp only [if_neg hkey, Resolver.pol_forget]
      obtain ⟨wp', hwp', hname, hrules⟩ := h.live k hold
      refine ⟨wp', hwp', hname, fun name rules hr => ?_⟩
      obtain ⟨id, hid, hc⟩ := hrules name rules hr
      exact ⟨id, hid, hc.of_sameId (hd.kept id (hother k name id hkey hid))⟩
    case bound =>
      intro p pm cid c hcached id hid
      rw [hres] at hcached hid ⊢
      rw [Resolver.pol_forget] at hid
      split at hid
      · exact absurd hid (by simp)
      · next hkey =>
        have hold := h.bound p pm cid c hcached id hid
        rcases hd.lookup c.cgroupID with hl | ⟨_, id', hmem, hl⟩
        · exact hl.trans hold
        · obtain rfl : id' = id := Option.some.inj (hl.symm.trans hold)
          exact absurd hmem (hother _ _ _ hkey hid)

theorem Enforced.live_pods (h : Enforced env n) {r' : Resolver}
    (hw : r'.wpState = n.resolver.wpState)
    (hids : ∀ id, SameId id n.resolver.world.maps r'.world.maps) (k : NamespacedPolicyName)
    (hk : (r'.wpState.lookup k).isSome) : ∃ wp, n.specs k = some wp ∧ wp.namespacedName = k ∧
      ∀ name rules, wp.rulesByContainer.lookup name = some rules →
        ∃ id, r'.pol k name = some id ∧ Carries env wp rules r'.world.maps id := by
  rw [hw] at hk
  obtain ⟨wp, hwp, hname, hrules⟩ := h.live k hk
  refine ⟨wp, hwp, hname, fun name rules hr => ?_⟩
  obtain ⟨id, hid, hc⟩ := hrules name rules hr
  exact ⟨id, (Resolver.pol_congr hw _ _).trans hid, hc.of_sameId (hids id)⟩

theorem Enforced.addPod (hR : Inventory R) (hs : Sound R n.resolver) (h : Enforced env n)
    {pod : PodInput} (hin : ∀ x ∈ (Op.addPod pod).reports, x ∈ R)
    (hop : (Op.addPod pod).Succeeds env n.resolver) : Enforced env (n.step env (.addPod pod)) := by
  obtain ⟨heff, hbinds⟩ := Op.Succeeds.addPod hR hs hin hop
  have hs' : Sound R ((Op.addPod pod).step env n.resolver) := heff.sound hs hin
  have hlive := h.live_pods heff.wpState heff.ids
  refine ⟨hlive, fun p pm cid c hcached id hid => ?_⟩
  by_cases hp : p = pod.podMeta.id
  · subst hp
    -- the policy is known, so the label is there
    have hknown : (((Op.addPod pod).step env n.resolver).wpState.lookup pm.policyKey).isSome := by
      obtain ⟨info, hinfo, _⟩ := Option.bind_eq_some_iff.mp hid
      exact Option.isSome_iff_exists.mpr ⟨info, hinfo⟩
    obtain ⟨wp, _, hname, _⟩ := hlive _ hknown
    exact hbinds.bound pm cid c hcached (PodMeta.policyName_ne hname.symm) id hid
  · have hold : n.resolver.Cached p pm cid c := by
      rcases heff.cachedFrom p pm cid c hcached with hold | ⟨hp', _⟩
      · exact hold
      · exact absurd hp' hp
    refine (hbinds.kept c.cgroupID fun pm' cid' c' hc' hcg => hp ?_).trans
      (h.bound p pm cid c hold id ((Resolver.pol_congr heff.wpState _ _).symm.trans hid))
    exact (hs'.eq_of_cgroup hR hc' hcached hcg).1.symm

theorem Enforced.removePod (hR : Inventory R) (hs : Sound R n.resolver) (h : Enforced env n)
    {podID : PodID} {cid : ContainerID} (hop : (Op.removePod podID cid).Succeeds env n.resolver) :
    Enforced env (n.step env (.removePod podID cid)) := by
  obtain ⟨heff, hunb⟩ := Op.Succeeds.removePod hop
  refine ⟨h.live_pods heff.wpState heff.ids, fun p pm cid' c hcached id hid => ?_⟩
  obtain ⟨hold, hne⟩ := heff.cachedFrom p pm cid' c hcached
  refine (hunb.kept c.cgroupID fun pm' c' hc' hcg => hne ?_).trans
    (h.bound p pm cid' c hold id ((Resolver.pol_congr heff.wpState _ _).symm.trans hid))
  obtain ⟨rfl, _, rfl, _⟩ := hs.eq_of_cgroup hR hc' hold hcg
  exact ⟨rfl, rfl⟩

/-- **Every operation whose calls succeed keeps containers bound.** -/
theorem Enforced.step (hR : Inventory R) (hs : Sound R n.resolver) (h : Enforced env n) {op : Op}
    (hin : ∀ x ∈ op.reports, x ∈ R) (hop : op.Succeeds env n.resolver) :
    Enforced env (n.step env op) := by
  cases op with
  | reconcile wp => exact h.reconcile hR hs hop
  | delete o => exact h.delete hs hop
  | addPod pod => exact h.addPod hR hs hin hop
  | removePod podID cid => exact h.removePod hR hs hop

theorem Enforced.run {ops : List Op} (hR : Inventory R)
    (hin : ∀ x ∈ ops.flatMap Op.reports, x ∈ R) (hs : Sound R n.resolver) (h : Enforced env n)
    (hops : Along (Node.step env) (fun n op => op.Succeeds env n.resolver) ops n) :
    Enforced env (Lib.run (Node.step env) ops n) := by
  refine (run_inv (I := fun n => Sound R n.resolver ∧ Enforced env n) ?_ ⟨hs, h⟩
    (hops.and (along_reports hin))).2
  rintro n op ⟨hs, h⟩ ⟨hop, hin⟩
  exact ⟨hs.step hR hin, h.step hR hs hin hop⟩

end

/-- **No lost protection.** -/
theorem protected_run {env : Env} {ops : List Op} (hinv : Inventory (ops.flatMap Op.reports))
    (hops : Along (Node.step env) (fun n op => op.Succeeds env n.resolver) ops {}) :
    Protected (run (Node.step env) ops {}) :=
  (Enforced.init.run hinv (fun _ hx => hx) Sound.init hops).isProtected

namespace Sample

/-- One pod is there before the policy and one comes after it; the policy is deleted and created
again with another list. -/
def recreated : List Op :=
  [.addPod (pod "a" "c1" 7), .reconcile (webApp .monitor ["/bin/sh".toUTF8.toList]),
    .addPod (pod "b" "c2" 8), .delete web, .reconcile (webApp .protect ["/bin/ls".toUTF8.toList])]

theorem protected_run_recreated : Protected (run (Node.step .calm) recreated {}) :=
  protected_run (by decide) (by decide +kernel)

example : (run (Node.step .calm) recreated {}).resolver.bound 7 = some 2 := by decide +kernel

end Sample

end RuntimeEnforcer
