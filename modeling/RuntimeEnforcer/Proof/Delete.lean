import RuntimeEnforcer.Proof.Owned

/-!
# Deleting a policy, again

`HandleWPDelete` forgets the policy before it clears the maps. When one of its calls fails it
stops, and the next attempt finds no policy and returns at once: the ids that were left are
`Leaked`, no operation will ever touch them again, and the cgroups still bound to them refuse every
other policy. So the ids are cleared if and only if no call of the first attempt fails.
-/

set_option autoImplicit false

namespace RuntimeEnforcer

open Lib

/-- `HandleWPDelete` is called until it returns. In between, the resolver goes on with other
operations, on containers of `R`. -/
inductive Retried (env : Env) (R : List Report) (o : ObjectMeta) : Resolver → Resolver → Prop
  | done {r r' : Resolver} (h : handleWPDelete env o r = .ok () r') : Retried env R o r r'
  | again {r r₁ r' : Resolver} {e : ResolverErr} {ops : List Op}
      (h : handleWPDelete env o r = .error e r₁) (hops : ∀ x ∈ ops.flatMap Op.reports, x ∈ R)
      (hrest : Retried env R o (run (Op.step env) ops r₁) r') : Retried env R o r r'

/-- None of the ids has an entry in any of the maps. -/
def Cleared (ids : Set PolicyID) (m : BpfMaps) : Prop :=
  ∀ id ∈ ids, (∀ cg, m.cgToPolicy.lookup cg ≠ some id) ∧ (∀ i, m.polStrMaps i id = none) ∧
    m.policySettings id = none

/-- A policy of the same name can be bound to the pods the policy with these ids was bound to in
`r`: where no call fails, its first reconcile binds every container it names. -/
def Rebindable (ids : Set PolicyID) (key : NamespacedPolicyName) (r r' : Resolver) : Prop :=
  ∀ (env : Env) (wp : WorkloadPolicy), (∀ t, env.fault t = none) → wp.namespacedName = key →
    wp.Acceptable env →
    (∀ p pm cid c, r'.Cached p pm cid c → pm.policyKey = key → wp.names c.name = true →
      r.bound c.cgroupID = none ∨ ∃ id ∈ ids, r.bound c.cgroupID = some id) →
    ∃ r'', reconcileWP env wp r' = .ok () r'' ∧
      ∀ p pm cid c, r''.Cached p pm cid c → pm.policyKey = key → wp.names c.name = true →
        ∃ id, r''.pol key c.name = some id ∧ r''.bound c.cgroupID = some id

/-! ## What is left behind -/

/-- The id has been given out, and no policy holds it. -/
def Leaked (id : PolicyID) (r : Resolver) : Prop :=
  id < r.nextPolicyID ∧ ∀ k n, r.pol k n ≠ some id

section

variable {env : Env} {R : List Report} {r r' : Resolver} {id : PolicyID} {o : ObjectMeta}

theorem Leaked.pods (h : Leaked id r) (hw : r'.wpState = r.wpState)
    (hn : r'.nextPolicyID = r.nextPolicyID) : Leaked id r' := by
  refine ⟨hn ▸ h.1, fun k n => ?_⟩
  rw [Resolver.pol_congr hw]
  exact h.2 k n

theorem Leaked.commit (h : Leaked id r) {wp : WorkloadPolicy} {s : PolicyScope}
    {status : PolicyStatus} {M D : Set ContainerMeta}
    (he : ReconcileEffect wp M (r.scope wp.namespacedName) D s) :
    Leaked id (r.commit wp.namespacedName s status) ∧ SameId id r.world.maps s.world.maps := by
  refine ⟨⟨Nat.lt_of_lt_of_le h.1 he.next, fun k n hid => ?_⟩, he.kept id h.1 fun n => ?_⟩
  · rw [Resolver.pol_commit] at hid
    split at hid
    · rcases he.polFrom n id hid with hold | ⟨_, hge, _⟩
      · exact h.2 _ n (Resolver.scope_lookup n ▸ hold)
      · exact absurd h.1 (Nat.not_lt.mpr hge)
    · exact h.2 k n hid
  · rw [Resolver.scope_lookup]
    exact h.2 _ n

theorem Leaked.forget (h : Leaked id r) {key : NamespacedPolicyName} {info : WpInfo} {w : World}
    {V : Set PolicyID} (hinfo : r.wpState.lookup key = some info)
    (hd : Deleting info.polByContainer V r.world.maps w.maps) :
    Leaked id (r.forget key w) ∧ SameId id r.world.maps w.maps := by
  refine ⟨⟨h.1, fun k n hid => ?_⟩, hd.kept id fun hmem => ?_⟩
  · rw [Resolver.pol_forget] at hid
    split at hid
    · exact absurd hid (by simp)
    · exact h.2 k n hid
  · obtain ⟨n, hn⟩ := (Resolver.mem_ids hinfo).mp hmem
    exact h.2 _ n hn

theorem Leaked.step (env : Env) (hR : Inventory R) (hs : Sound R r) (h : Leaked id r) (op : Op)
    (hin : ∀ x ∈ op.reports, x ∈ R) :
    Leaked id (op.step env r) ∧ SameId id r.world.maps (op.step env r).world.maps := by
  refine Ends.after (P := fun r' => Leaked id r' ∧ SameId id r.world.maps r'.world.maps) ?_
  cases op with
  | reconcile wp =>
    refine (reconcileWP_ends hs hR).mono ?_ ?_
    · rintro _ _ ⟨s, status, rfl, hrec⟩
      exact h.commit (hrec.effect hs.allocated)
    · rintro e _ ⟨s, status, rfl, hf⟩
      obtain ⟨_, D, he, _⟩ := hf.effect hs.allocated
      exact h.commit he
  | delete o =>
    refine (handleWPDelete_ends hs).mono ?_ ?_
    · rintro _ _ (⟨_, rfl⟩ | ⟨info, w, hinfo, rfl, hd, _⟩)
      · exact ⟨h, SameId.refl⟩
      · exact h.forget hinfo hd
    · rintro e _ ⟨info, w, hinfo, rfl, hf⟩
      obtain ⟨V, hd, _⟩ := hf.deleting
      exact h.forget hinfo hd
  | addPod pod =>
    refine (addPodContainerFromNri_ends (hs.oneName_podMetas hR hin)).mono ?_ ?_
    · exact fun _ _ he => ⟨h.pods he.1.wpState he.1.next, he.1.ids id⟩
    · exact fun _ _ he => ⟨h.pods he.1.wpState he.1.next, he.1.ids id⟩
  | removePod podID cid =>
    refine removePodContainerFromNri_ends.mono ?_ ?_
    · exact fun _ _ he => ⟨h.pods he.1.wpState he.1.next, he.1.ids id⟩
    · exact fun _ _ he => ⟨h.pods he.1.wpState he.1.next, he.1.ids id⟩

theorem Leaked.run (env : Env) {ops : List Op} (hR : Inventory R)
    (hin : ∀ x ∈ ops.flatMap Op.reports, x ∈ R) (hs : Sound R r) (h : Leaked id r) :
    Leaked id (Lib.run (Op.step env) ops r) ∧
      SameId id r.world.maps (Lib.run (Op.step env) ops r).world.maps := by
  refine (run_inv (I := fun r' => Sound R r' ∧ Leaked id r' ∧ SameId id r.world.maps r'.world.maps)
    ?_ ⟨hs, h, SameId.refl⟩ (along_reports hin)).2
  rintro r' op ⟨hs, h, hsame⟩ hin
  obtain ⟨hl, hsame'⟩ := h.step env hR hs op hin
  exact ⟨hs.step hR hin, hl, hsame.trans hsame'⟩

theorem Leaked.retried (hR : Inventory R) (hs : Sound R r) (h : Leaked id r)
    (hret : Retried env R o r r') : SameId id r.world.maps r'.world.maps := by
  have hnone : ∀ x ∈ (Op.delete o).reports, x ∈ R := by simp [Op.reports]
  induction hret with
  | @done r r' hok =>
    have hstep := h.step env hR hs (.delete o) hnone
    rw [show (Op.delete o).step env r = r' from after_of_ok hok] at hstep
    exact hstep.2
  | @again r r₁ r' e ops herr hops _ ih =>
    have hstep := h.step env hR hs (.delete o) hnone
    have hs₁ : Sound R ((Op.delete o).step env r) := hs.step hR hnone
    rw [show (Op.delete o).step env r = r₁ from after_of_error herr] at hstep hs₁
    obtain ⟨h₂, hsame⟩ := hstep.1.run env hR hops hs₁
    exact (hstep.2.trans hsame).trans (ih (hs₁.run hR hops) h₂)

/-! ## The first attempt decides -/

variable {info : WpInfo}

theorem Rebindable.of_deleting (hR : Inventory R) (hs : Sound R r) {key : NamespacedPolicyName}
    (hinfo : r.wpState.lookup key = some info) {w : World}
    (hd : Deleting info.polByContainer info.polByContainer.ids r.world.maps w.maps) :
    Rebindable info.polByContainer.ids key r (r.forget key w) := by
  rintro env wp henv rfl hacc hfree
  have hs' : Sound R (r.forget wp.namespacedName w) := hs.forget hinfo hd
  -- the containers to be bound are unbound by now
  have hnone : ∀ c ∈ matched r.podCache wp.namespacedName, wp.names c.name = true → ∀ d,
      (r.forget wp.namespacedName w).bound c.cgroupID ≠ some d := by
    intro c hc hn d hb
    obtain ⟨p, pm, cid, hcached, hkey⟩ := mem_matched.mp hc
    have hold : r.bound c.cgroupID = some d := by
      rcases hd.lookup c.cgroupID with hl | hl
      · exact hl.symm.trans hb
      · exact absurd (hl.1.symm.trans hb) (by simp)
    rcases hfree p pm cid c hcached hkey hn with hu | ⟨id, hmem, hid⟩
    · exact absurd (hu.symm.trans hold) (by simp)
    · obtain rfl : id = d := Option.some.inj (hid.symm.trans hold)
      exact (hd.gone id hmem).1 _ hb
  obtain ⟨s, status, hok, h⟩ := reconcileWP_of_faultless hR hs' henv hacc
    fun c hc hn d hb => absurd hb (hnone c hc hn d)
  refine ⟨_, hok, fun p pm cid c hcached hkey hn => ?_⟩
  exact h.bound_of_names hs' (mem_matched.mpr ⟨p, pm, cid, hcached, hkey⟩) hn

theorem DeleteFails.leaks (hs : Sound R r) {key : NamespacedPolicyName}
    (hinfo : r.wpState.lookup key = some info) {e : ResolverErr} {w : World}
    (hf : DeleteFails env info.polByContainer r.world e w) :
    ∃ id ∈ info.polByContainer.ids, Leaked id (r.forget key w) ∧
      (w.maps.policySettings id).isSome := by
  obtain ⟨V, hd, id, hmem, hV⟩ := hf.deleting
  obtain ⟨n, hn⟩ := (Resolver.mem_ids hinfo).mp hmem
  refine ⟨id, hmem, ⟨hs.lt _ _ _ hn, fun k n' hid => ?_⟩, ?_⟩
  · rw [Resolver.pol_forget] at hid
    split at hid
    · exact absurd hid (by simp)
    · next hk => exact hk (hs.inj _ _ _ _ id hid hn).1
  · rw [hd.pending id hV]
    exact hs.settings _ _ _ hn

end

/-- **A policy is deleted for good if and only if no call of the first attempt fails.** -/
theorem retried_cleared_iff {env : Env} {R : List Report} {ops : List Op} {o : ObjectMeta}
    {info : WpInfo} {r' : Resolver} (hinv : Inventory R)
    (hops : ∀ x ∈ ops.flatMap Op.reports, x ∈ R)
    (hinfo : (run (Op.step env) ops {}).wpState.lookup o.namespacedName = some info)
    (hret : Retried env R o (run (Op.step env) ops {}) r') :
    (Cleared info.polByContainer.ids r'.world.maps ∧
      Rebindable info.polByContainer.ids o.namespacedName (run (Op.step env) ops {}) r') ↔
      Quiet env.toManagerEnv (run (Op.step env) ops {}).world
        (after (handleWPDelete env o (run (Op.step env) ops {}))).world := by
  have hs : Sound R (run (Op.step env) ops {}) := Sound.init.run hinv hops
  generalize run (Op.step env) ops {} = r at *
  have hend : Ends (handleWPDelete env o r) _ _ := handleWPDelete_ends hs
  cases hret with
  | done hok =>
    rw [after_of_ok hok]
    rcases hend.of_ok hok with ⟨hnone, _⟩ | ⟨info', w, hinfo', rfl, hd, hruns⟩
    · exact absurd hinfo (by simp [hnone])
    · obtain rfl : info' = info := Option.some.inj (hinfo'.symm.trans hinfo)
      exact ⟨fun _ => hruns.quiet, fun _ => ⟨hd.gone, Rebindable.of_deleting hinv hs hinfo hd⟩⟩
  | again herr hin hrest =>
    rw [after_of_error herr]
    obtain ⟨info', w, hinfo', rfl, hf⟩ := hend.of_error herr
    obtain rfl : info' = info := Option.some.inj (hinfo'.symm.trans hinfo)
    constructor
    · -- what the first attempt has left is there at the end
      rintro ⟨hcl, _⟩
      obtain ⟨id, hmem, hleak, hset⟩ := hf.leaks hs hinfo
      have hs₁ : Sound R (r.forget o.namespacedName w) := by
        obtain ⟨V, hd, _⟩ := hf.deleting
        exact hs.forget hinfo hd
      obtain ⟨hleak', hsame⟩ := hleak.run env hinv hin hs₁
      have hsame' := hsame.trans (hleak'.retried hinv (hs₁.run hinv hin) hrest)
      have hgone : w.maps.policySettings id = none := hsame'.settings.symm.trans (hcl id hmem).2.2
      exact absurd hset (by simp [hgone])
    · intro hq
      refine absurd hq (hf.fails.fault fun id hid => ?_)
      obtain ⟨n, hn⟩ := (Resolver.mem_ids hinfo).mp hid
      exact hs.pos _ _ _ hn

namespace Sample

def bound : List Op := [.reconcile (webApp .protect []), .addPod (pod "a" "c1" 7)]

theorem retried_cleared_iff_bound : ∃ info r',
    (run (Op.step .calm) bound {}).wpState.lookup web.namespacedName = some info ∧
      Retried .calm (bound.flatMap Op.reports) web (run (Op.step .calm) bound {}) r' ∧
      Cleared info.polByContainer.ids r'.world.maps ∧
      Rebindable info.polByContainer.ids web.namespacedName (run (Op.step .calm) bound {}) r' := by
  have hsome : ((run (Op.step .calm) bound {}).wpState.lookup web.namespacedName).isSome := by
    decide +kernel
  obtain ⟨info, hinfo⟩ := Option.isSome_iff_exists.mp hsome
  obtain ⟨_, hok⟩ := (isOk_iff (r := handleWPDelete .calm web (run (Op.step .calm) bound {}))).mp
    (by decide +kernel)
  have hret := Retried.done (R := bound.flatMap Op.reports) hok
  exact ⟨info, _, hinfo, hret,
    (retried_cleared_iff (by decide) (fun _ hx => hx) hinfo hret).mpr fun _ _ _ => rfl⟩

/-- The first call of the first attempt fails, and the second attempt returns at once: the pod is
still bound to the id of the deleted policy, and a policy of the same name cannot be bound to it. -/
theorem bound_after_delete : ∃ r',
    Retried (.failsAt 3) (bound.flatMap Op.reports) web (run (Op.step (.failsAt 3)) bound {}) r' ∧
      (run (Op.step (.failsAt 3)) bound {}).pol web.namespacedName "app" = some 1 ∧
      r'.bound 7 = some 1 ∧ r'.world.maps.policySettings 1 ≠ none ∧
      isOk (reconcileWP (.failsAt 3) (webApp .protect []) r') = false := by
  obtain ⟨e, herr⟩ := (isOk_eq_false_iff (r := handleWPDelete (.failsAt 3) web
    (run (Op.step (.failsAt 3)) bound {}))).mp (by decide +kernel)
  obtain ⟨_, hok⟩ := (isOk_iff (r := handleWPDelete (.failsAt 3) web (after
    (handleWPDelete (.failsAt 3) web (run (Op.step (.failsAt 3)) bound {}))))).mp
      (by decide +kernel)
  have hnone : ∀ x ∈ ([] : List Op).flatMap Op.reports, x ∈ bound.flatMap Op.reports := by simp
  exact ⟨_, .again herr hnone (.done hok), by decide +kernel, by decide +kernel,
    by decide +kernel, by decide +kernel⟩

end Sample

end RuntimeEnforcer
