import RuntimeEnforcer.Lib.Run
import RuntimeEnforcer.Proof.Effects

/-!
# What holds in every reachable state

`Sound` is the part of the resolver's invariant that no failure can break: the policy ids in use
are pairwise different, below the next one and have settings, the ids to come have nothing stored,
and every cached container has been reported. Everything about bindings is conditional, and is in
the modules that need it.
-/

set_option autoImplicit false

namespace RuntimeEnforcer

open Lib

/-- The ids in use are pairwise different, below the next one and have settings, and the ids to come
have nothing stored. -/
structure Ids (r : Resolver) : Prop where
  nextPos : 0 < r.nextPolicyID
  pos : ∀ k n id, r.pol k n = some id → 0 < id
  lt : ∀ k n id, r.pol k n = some id → id < r.nextPolicyID
  inj : ∀ k n k' n' id, r.pol k n = some id → r.pol k' n' = some id → k = k' ∧ n = n'
  settings : ∀ k n id, r.pol k n = some id → (r.world.maps.policySettings id).isSome
  fresh : ∀ id, r.nextPolicyID ≤ id → ∀ i, r.world.maps.polStrMaps i id = none

/-- The invariant of every run, whatever fails; `R` are the containers ever reported. -/
structure Sound (R : List Report) (r : Resolver) : Prop where
  nextPos : 0 < r.nextPolicyID
  pos : ∀ k n id, r.pol k n = some id → 0 < id
  lt : ∀ k n id, r.pol k n = some id → id < r.nextPolicyID
  inj : ∀ k n k' n' id, r.pol k n = some id → r.pol k' n' = some id → k = k' ∧ n = n'
  settings : ∀ k n id, r.pol k n = some id → (r.world.maps.policySettings id).isSome
  fresh : ∀ id, r.nextPolicyID ≤ id → ∀ i, r.world.maps.polStrMaps i id = none
  reported : ∀ p pm cid c, r.Cached p pm cid c → ⟨p, cid, c.name, c.cgroupID⟩ ∈ R

section

variable {env : Env} {R : List Report} {r r' : Resolver} {wp : WorkloadPolicy}
  {key : NamespacedPolicyName} {c c' : ContainerMeta} {p p' : PodID} {pm pm' : PodMeta}
  {cid cid' : ContainerID}

theorem mem_matched : c ∈ matched r.podCache key ↔
    ∃ p pm cid, r.Cached p pm cid c ∧ pm.policyKey = key := by
  constructor
  · rintro ⟨p, pod, hpod, hkey, cid, hc⟩
    exact ⟨p, pod.podMeta, cid, ⟨pod, hpod, rfl, hc⟩, hkey⟩
  · rintro ⟨p, pm, cid, ⟨pod, hpod, rfl, hc⟩, hkey⟩
    exact ⟨p, pod, hpod, hkey, cid, hc⟩

theorem Sound.eq_of_cgroup (hs : Sound R r) (hR : Inventory R) (h : r.Cached p pm cid c)
    (h' : r.Cached p' pm' cid' c') (hcg : c.cgroupID = c'.cgroupID) :
    p = p' ∧ pm = pm' ∧ cid = cid' ∧ c = c' := by
  have heq := (hR _ (hs.reported _ _ _ _ h) _ (hs.reported _ _ _ _ h')).2 hcg
  simp only [Report.mk.injEq] at heq
  obtain ⟨rfl, rfl, hname, _⟩ := heq
  obtain ⟨entry, hentry, rfl, hc⟩ := h
  obtain ⟨entry', hentry', rfl, hc'⟩ := h'
  obtain rfl : entry = entry' := Option.some.inj (hentry.symm.trans hentry')
  exact ⟨rfl, rfl, rfl, ContainerMeta.ext hname hcg⟩

theorem Sound.oneName (hs : Sound R r) (hR : Inventory R) : OneName (matched r.podCache key) := by
  intro c hc c' hc' hcg
  obtain ⟨p, pm, cid, h, _⟩ := mem_matched.mp hc
  obtain ⟨p', pm', cid', h', _⟩ := mem_matched.mp hc'
  rw [(hs.eq_of_cgroup hR h h' hcg).2.2.2]

theorem Resolver.scope_lookup (n : ContainerName) :
    (r.scope key).polByContainer.lookup n = r.pol key n :=
  (r.pol_eq_getD key n).symm

theorem Sound.ids (hs : Sound R r) : Ids r :=
  ⟨hs.nextPos, hs.pos, hs.lt, hs.inj, hs.settings, hs.fresh⟩

theorem Ids.sound (hs : Ids r)
    (hrep : ∀ p pm cid c, r.Cached p pm cid c → ⟨p, cid, c.name, c.cgroupID⟩ ∈ R) : Sound R r :=
  ⟨hs.nextPos, hs.pos, hs.lt, hs.inj, hs.settings, hs.fresh, hrep⟩

theorem Ids.allocated (hs : Ids r) : Allocated (r.scope key) where
  nextPos := hs.nextPos
  pos := fun n id h => hs.pos key n id (Resolver.scope_lookup n ▸ h)
  lt := fun n id h => hs.lt key n id (Resolver.scope_lookup n ▸ h)
  inj := fun n n' id h h' =>
    (hs.inj key n key n' id (Resolver.scope_lookup n ▸ h) (Resolver.scope_lookup n' ▸ h')).2
  settings := fun n id h => hs.settings key n id (Resolver.scope_lookup n ▸ h)
  fresh := hs.fresh

theorem Sound.allocated (hs : Sound R r) : Allocated (r.scope key) := hs.ids.allocated

/-! ## The operations, on the resolver -/

variable {s : PolicyScope} {status : PolicyStatus}

theorem Resolver.pol_commit (k : NamespacedPolicyName) (n : ContainerName) :
    (r.commit key s status).pol k n =
      if k = key then s.polByContainer.lookup n else r.pol k n := by
  unfold Resolver.pol Resolver.commit
  simp only [GoMap.lookup_insert_eq]
  by_cases hk : k = key <;> simp [hk]

theorem reconcileWP_ends (hs : Sound R r) (hR : Inventory R) :
    Ends (reconcileWP env wp r)
      (fun _ r' => ∃ s status, r' = r.commit wp.namespacedName s status ∧
        Reconciled env wp (matched r.podCache wp.namespacedName) (r.scope wp.namespacedName) s)
      (fun e r' => ∃ s status, r' = r.commit wp.namespacedName s status ∧
        ReconcileFailed env wp (matched r.podCache wp.namespacedName)
          (r.scope wp.namespacedName) e s) := by
  have h : Ends (reconcileContainers env wp r.podCache (r.scope wp.namespacedName)) _ _ :=
    reconcileContainers_ends hs.allocated (hs.oneName hR)
  cases hres : reconcileContainers env wp r.podCache (r.scope wp.namespacedName) with
  | ok u s =>
    simp only [reconcileWP, hres]
    exact ends_ok.mpr ⟨s, _, rfl, h.of_ok hres⟩
  | error e s =>
    simp only [reconcileWP, hres]
    exact ends_error.mpr ⟨s, _, rfl, h.of_error hres⟩

/-- Drop a policy's entry, with the maps `w`. -/
def Resolver.forget (r : Resolver) (key : NamespacedPolicyName) (w : World) : Resolver :=
  { r with wpState := r.wpState.erase key, world := w }

theorem Resolver.pol_forget {w : World} (k : NamespacedPolicyName) (n : ContainerName) :
    (r.forget key w).pol k n = if k = key then none else r.pol k n := by
  unfold Resolver.pol Resolver.forget
  simp only [GoMap.lookup_erase_eq]
  by_cases hk : k = key <;> simp [hk]

theorem Resolver.mem_ids {info : WpInfo} (h : r.wpState.lookup key = some info) {id : PolicyID} :
    id ∈ info.polByContainer.ids ↔ ∃ n, r.pol key n = some id := by
  unfold Resolver.pol
  simp only [h, Option.bind_some]
  exact Iff.rfl

theorem handleWPDelete_ends {o : ObjectMeta} (hs : Sound R r) :
    Ends (handleWPDelete env o r)
      (fun _ r' => r.wpState.lookup o.namespacedName = none ∧ r' = r ∨
        ∃ info w, r.wpState.lookup o.namespacedName = some info ∧
          r' = r.forget o.namespacedName w ∧
          Deleting info.polByContainer info.polByContainer.ids r.world.maps w.maps ∧
          Runs env.toManagerEnv (fun _ => True) r.world w)
      (fun e r' => ∃ info w, r.wpState.lookup o.namespacedName = some info ∧
        r' = r.forget o.namespacedName w ∧ DeleteFails env info.polByContainer r.world e w) := by
  unfold handleWPDelete
  refine Ends.bind (ends_ok.mpr ?_)
  cases hinfo : r.wpState.lookup o.namespacedName with
  | none => exact ends_ok.mpr (.inl ⟨rfl, rfl⟩)
  | some info =>
    have hpol : ∀ n, info.polByContainer.lookup n = r.pol o.namespacedName n := by
      intro n
      unfold Resolver.pol
      rw [hinfo]
      rfl
    have hinj : ∀ n n' id, info.polByContainer.lookup n = some id →
        info.polByContainer.lookup n' = some id → n = n' := fun n n' id h h' =>
      (hs.inj _ n _ n' id (hpol n ▸ h) (hpol n' ▸ h')).2
    refine Ends.bind (ends_ok.mpr (Ends.zoom ((deleteContainers_ends hinj).mono ?_ ?_)))
    · rintro _ w ⟨hdel, hruns⟩
      exact .inr ⟨info, w, rfl, rfl, hdel, hruns⟩
    · intro e w hf
      exact ⟨info, w, rfl, rfl, hf⟩

/-! ## No operation breaks it -/

variable {pod : PodInput}

theorem Ids.init : Ids {} where
  nextPos := Nat.one_pos
  pos := fun _ _ _ h => absurd h (by simp [Resolver.pol])
  lt := fun _ _ _ h => absurd h (by simp [Resolver.pol])
  inj := fun _ _ _ _ _ h => absurd h (by simp [Resolver.pol])
  settings := fun _ _ _ h => absurd h (by simp [Resolver.pol])
  fresh := fun _ _ _ => rfl

theorem Sound.init : Sound R {} := by
  refine Ids.init.sound ?_
  rintro p pm cid c ⟨entry, hentry, _⟩
  exact absurd hentry (by simp)

/-- The policy's own entry changes as an operation on it may: names keep their ids or get new ones,
and only the policy's ids are touched. -/
structure OwnStep (s₀ s : PolicyScope) : Prop where
  next : s₀.nextPolicyID ≤ s.nextPolicyID
  polFrom : ∀ n id, s.polByContainer.lookup n = some id → s₀.polByContainer.lookup n = some id ∨
    s₀.nextPolicyID ≤ id ∧ id < s.nextPolicyID
  polInj : ∀ n n' id, s.polByContainer.lookup n = some id → s.polByContainer.lookup n' = some id →
    n = n'
  settings : ∀ n id, s.polByContainer.lookup n = some id →
    (s.world.maps.policySettings id).isSome
  kept : ∀ id, id < s₀.nextPolicyID → (∀ n, s₀.polByContainer.lookup n ≠ some id) →
    SameId id s₀.world.maps s.world.maps
  fresh : ∀ id, s.nextPolicyID ≤ id → ∀ i, s.world.maps.polStrMaps i id = none

theorem Ids.commit (hs : Ids r) (he : OwnStep (r.scope key) s) : Ids (r.commit key s status) := by
  have hnext : r.nextPolicyID ≤ s.nextPolicyID := he.next
  -- an id of the policy afterwards is one it had, or a new one
  have hfrom : ∀ n id, s.polByContainer.lookup n = some id →
      r.pol key n = some id ∨ r.nextPolicyID ≤ id ∧ id < s.nextPolicyID := by
    intro n id hid
    rcases he.polFrom n id hid with h | h
    · exact .inl (Resolver.scope_lookup n ▸ h)
    · exact .inr h
  -- so it is none of another policy's
  have hother : ∀ k n n' id, k ≠ key → r.pol k n = some id →
      s.polByContainer.lookup n' = some id → False := by
    intro k n n' id hk hid hid'
    rcases hfrom n' id hid' with h | h
    · exact hk (hs.inj _ _ _ _ id hid h).1
    · exact absurd (hs.lt k n id hid) (Nat.not_lt.mpr h.1)
  constructor
  case nextPos => exact Nat.lt_of_lt_of_le hs.nextPos hnext
  case pos =>
    intro k n id hid
    rw [Resolver.pol_commit] at hid
    split at hid
    · rcases hfrom n id hid with h | h
      · exact hs.pos _ _ _ h
      · exact Nat.lt_of_lt_of_le hs.nextPos h.1
    · exact hs.pos k n id hid
  case lt =>
    intro k n id hid
    rw [Resolver.pol_commit] at hid
    split at hid
    · rcases hfrom n id hid with h | h
      · exact Nat.lt_of_lt_of_le (hs.lt _ _ _ h) hnext
      · exact h.2
    · exact Nat.lt_of_lt_of_le (hs.lt k n id hid) hnext
  case inj =>
    intro k n k' n' id hid hid'
    rw [Resolver.pol_commit] at hid hid'
    split at hid <;> split at hid'
    · next hk hk' => exact ⟨hk.trans hk'.symm, he.polInj n n' id hid hid'⟩
    · next hk hk' => exact (hother k' n' n id hk' hid' hid).elim
    · next hk hk' => exact (hother k n n' id hk hid hid').elim
    · exact hs.inj k n k' n' id hid hid'
  case settings =>
    intro k n id hid
    rw [Resolver.pol_commit] at hid
    split at hid
    · exact he.settings n id hid
    · next hk =>
      have hsame := he.kept id (hs.lt k n id hid) fun n' hid' =>
        hk (hs.inj _ _ _ _ id hid (Resolver.scope_lookup n' ▸ hid')).1
      show (s.world.maps.policySettings id).isSome
      rw [hsame.settings]
      exact hs.settings k n id hid
  case fresh => exact he.fresh

theorem Ids.forget (hs : Ids r) (hpol : ∀ k n, r'.pol k n = if k = key then none else r.pol k n)
    (hn : r'.nextPolicyID = r.nextPolicyID)
    (hd : ∀ id, (∀ n, r.pol key n ≠ some id) → SameId id r.world.maps r'.world.maps) : Ids r' := by
  have hsub : ∀ k n id, r'.pol k n = some id → k ≠ key ∧ r.pol k n = some id := by
    intro k n id hid
    rw [hpol] at hid
    split at hid
    · exact absurd hid (by simp)
    · next hk => exact ⟨hk, hid⟩
  constructor
  case nextPos => exact hn ▸ hs.nextPos
  case pos => exact fun k n id hid => hs.pos k n id (hsub k n id hid).2
  case lt => exact fun k n id hid => hn ▸ hs.lt k n id (hsub k n id hid).2
  case inj =>
    intro k n k' n' id hid hid'
    exact hs.inj k n k' n' id (hsub k n id hid).2 (hsub k' n' id hid').2
  case settings =>
    intro k n id hid
    obtain ⟨hk, hid⟩ := hsub k n id hid
    rw [(hd id fun n' hid' => hk (hs.inj _ _ _ _ id hid hid').1).settings]
    exact hs.settings k n id hid
  case fresh =>
    intro id hid i
    rw [hn] at hid
    refine ((hd id fun n hn => ?_).strings i).trans (hs.fresh id hid i)
    exact absurd (hs.lt _ _ _ hn) (Nat.not_lt.mpr hid)

theorem Resolver.pol_congr (h : r'.wpState = r.wpState) (k : NamespacedPolicyName)
    (n : ContainerName) : r'.pol k n = r.pol k n := by
  unfold Resolver.pol
  rw [h]

theorem Ids.pods (hs : Ids r) (hw : r'.wpState = r.wpState)
    (hn : r'.nextPolicyID = r.nextPolicyID) (hids : ∀ id, SameId id r.world.maps r'.world.maps) :
    Ids r' := by
  have hpol : ∀ k n, r'.pol k n = r.pol k n := Resolver.pol_congr hw
  exact
  { nextPos := hn ▸ hs.nextPos
    pos := fun k n id h => hs.pos k n id (hpol k n ▸ h)
    lt := fun k n id h => hn ▸ hs.lt k n id (hpol k n ▸ h)
    inj := fun k n k' n' id h h' => hs.inj k n k' n' id (hpol k n ▸ h) (hpol k' n' ▸ h')
    settings := fun k n id h => by
      rw [(hids id).settings]
      exact hs.settings k n id (hpol k n ▸ h)
    fresh := fun id hid i => ((hids id).strings i).trans (hs.fresh id (hn ▸ hid) i) }

theorem ReconcileEffect.own {M D : Set ContainerMeta} {s₀ : PolicyScope} (ha : Allocated s₀)
    (he : ReconcileEffect wp M s₀ D s) : OwnStep s₀ s where
  next := he.next
  polFrom n id hid := (he.polFrom n id hid).imp_right And.right
  polInj := he.polInj
  settings := he.settings
  kept := he.kept
  fresh id hid i := ((he.fresh id hid).strings i).trans (ha.fresh id (Nat.le_trans he.next hid) i)

theorem Sound.commit (hs : Sound R r) {M D : Set ContainerMeta}
    (he : ReconcileEffect wp M (r.scope wp.namespacedName) D s) :
    Sound R (r.commit wp.namespacedName s status) :=
  (hs.ids.commit (he.own hs.allocated)).sound hs.reported

theorem Sound.forget (hs : Sound R r) {info : WpInfo} (hinfo : r.wpState.lookup key = some info)
    {V : Set PolicyID} {w : World} (hd : Deleting info.polByContainer V r.world.maps w.maps) :
    Sound R (r.forget key w) := by
  refine (hs.ids.forget Resolver.pol_forget rfl fun id hid => hd.kept id ?_).sound hs.reported
  rw [Resolver.mem_ids hinfo]
  exact fun ⟨n, hn⟩ => hid n hn

theorem Sound.pods (hs : Sound R r) (hw : r'.wpState = r.wpState)
    (hn : r'.nextPolicyID = r.nextPolicyID) (hids : ∀ id, SameId id r.world.maps r'.world.maps)
    (hrep : ∀ p pm cid c, r'.Cached p pm cid c → ⟨p, cid, c.name, c.cgroupID⟩ ∈ R) :
    Sound R r' :=
  (hs.ids.pods hw hn hids).sound hrep

theorem mem_reports {cid : ContainerID} {ci : ContainerInput}
    (h : pod.containers.lookup cid = some ci) :
    ⟨pod.podMeta.id, cid, ci.name, ci.cgroupID⟩ ∈ (Op.addPod pod).reports :=
  List.mem_map.mpr ⟨⟨cid, ci⟩, GoMap.mem_entries.mpr h, rfl⟩

theorem Sound.reported_podMetas (hs : Sound R r) (hin : ∀ x ∈ (Op.addPod pod).reports, x ∈ R)
    (hc : c ∈ podMetas r pod) : ∃ cid, ⟨pod.podMeta.id, cid, c.name, c.cgroupID⟩ ∈ R := by
  rcases hc with ⟨pm, cid, hcached⟩ | ⟨cid, ci, hci, rfl⟩
  · exact ⟨cid, hs.reported _ _ _ _ hcached⟩
  · exact ⟨cid, hin _ (mem_reports hci)⟩

theorem Sound.oneName_podMetas (hs : Sound R r) (hR : Inventory R)
    (hin : ∀ x ∈ (Op.addPod pod).reports, x ∈ R) : OneName (podMetas r pod) := by
  intro c hc c' hc' hcg
  obtain ⟨cid, h⟩ := hs.reported_podMetas hin hc
  obtain ⟨cid', h'⟩ := hs.reported_podMetas hin hc'
  exact congrArg Report.name ((hR _ h _ h').2 hcg)

theorem AddEffect.sound (he : AddEffect r pod r') (hs : Sound R r)
    (hin : ∀ x ∈ (Op.addPod pod).reports, x ∈ R) : Sound R r' := by
  refine hs.pods he.wpState he.next he.ids fun p pm cid c hc => ?_
  rcases he.cachedFrom p pm cid c hc with hold | ⟨rfl, ci, hci, rfl⟩
  · exact hs.reported p pm cid c hold
  · exact hin _ (mem_reports hci)

theorem RemoveEffect.sound (he : RemoveEffect r p cid r') (hs : Sound R r) : Sound R r' :=
  hs.pods he.wpState he.next he.ids fun p pm cid c hc =>
    hs.reported p pm cid c (he.cachedFrom p pm cid c hc).1

/-- **Every operation keeps the invariant**, whatever fails. -/
theorem Sound.step (hR : Inventory R) (hs : Sound R r) {op : Op} (hin : ∀ x ∈ op.reports, x ∈ R) :
    Sound R (op.step env r) := by
  refine Ends.after ?_
  cases op with
  | reconcile wp =>
    refine (reconcileWP_ends hs hR).mono ?_ ?_
    · rintro _ r' ⟨s, status, rfl, h⟩
      exact hs.commit (h.effect hs.allocated)
    · rintro e r' ⟨s, status, rfl, h⟩
      obtain ⟨_, D, he, _⟩ := h.effect hs.allocated
      exact hs.commit he
  | delete o =>
    refine (handleWPDelete_ends hs).mono ?_ ?_
    · rintro _ r' (⟨_, rfl⟩ | ⟨info, w, hinfo, rfl, hd, _⟩)
      · exact hs
      · exact hs.forget hinfo hd
    · rintro e r' ⟨info, w, hinfo, rfl, hf⟩
      obtain ⟨V, hd, _⟩ := hf.deleting
      exact hs.forget hinfo hd
  | addPod pod =>
    exact (addPodContainerFromNri_ends (hs.oneName_podMetas hR hin)).mono
      (fun _ _ h => h.1.sound hs hin) (fun _ _ h => h.1.sound hs hin)
  | removePod podID cid =>
    exact removePodContainerFromNri_ends.mono
      (fun _ _ h => h.1.sound hs) (fun _ _ h => h.1.sound hs)

theorem along_reports {σ : Type} {step : Op → σ → σ} {ops : List Op} {s : σ}
    (hin : ∀ x ∈ ops.flatMap Op.reports, x ∈ R) :
    Along step (fun _ op => ∀ x ∈ op.reports, x ∈ R) ops s :=
  along_of_forall fun op hop x hx => hin x (List.mem_flatMap.mpr ⟨op, hop, hx⟩)

theorem Sound.run {ops : List Op} (hR : Inventory R) (hin : ∀ x ∈ ops.flatMap Op.reports, x ∈ R)
    (hs : Sound R r) : Sound R (Lib.run (Op.step env) ops r) :=
  run_inv (fun _ _ hs hop => hs.step hR hop) hs (along_reports hin)

/-! ## Operations whose calls all succeed -/

theorem Op.Succeeds.reconcile (hR : Inventory R) (hs : Sound R r)
    (h : (Op.reconcile wp).Succeeds env r) :
    ∃ s status, (Op.reconcile wp).step env r = r.commit wp.namespacedName s status ∧
      Reconciled env wp (matched r.podCache wp.namespacedName) (r.scope wp.namespacedName) s := by
  refine Ends.after (((reconcileWP_ends hs hR).and h).mono (fun _ _ h => h.1) ?_)
  rintro e r' ⟨⟨s, status, rfl, hf⟩, hne⟩
  exact absurd (hf.effect hs.allocated).1 (by simp [hne])

theorem Op.Succeeds.delete {o : ObjectMeta} (hs : Sound R r)
    (h : (Op.delete o).Succeeds env r) :
    r.wpState.lookup o.namespacedName = none ∧ (Op.delete o).step env r = r ∨
      ∃ info w, r.wpState.lookup o.namespacedName = some info ∧
        (Op.delete o).step env r = r.forget o.namespacedName w ∧
        Deleting info.polByContainer info.polByContainer.ids r.world.maps w.maps := by
  have hend : Ends (handleWPDelete env o r) _ _ := (handleWPDelete_ends hs).and h
  refine Ends.after (P := fun r' => r.wpState.lookup o.namespacedName = none ∧ r' = r ∨
    ∃ info w, r.wpState.lookup o.namespacedName = some info ∧ r' = r.forget o.namespacedName w ∧
      Deleting info.polByContainer info.polByContainer.ids r.world.maps w.maps)
    (hend.mono ?_ ?_)
  · rintro _ r' ⟨hnone | ⟨info, w, hinfo, hr', hd, _⟩, _⟩
    · exact .inl hnone
    · exact .inr ⟨info, w, hinfo, hr', hd⟩
  · rintro e r' ⟨⟨info, w, _, _, hf⟩, hne⟩
    exact absurd hf.isBpf (by simp [hne])

theorem Sound.not_conflicts (hs : Sound R r) (hR : Inventory R)
    (hin : ∀ x ∈ (Op.addPod pod).reports, x ∈ R) : ¬ r.Conflicts pod := by
  rintro ⟨pm, cid, ci, info, hci, hcached, hne⟩
  have heq := (hR _ (hs.reported _ _ _ _ hcached) _ (hin _ (mem_reports hci))).1 rfl
  simp only [Report.mk.injEq, true_and] at heq
  exact hne (ContainerMeta.ext heq.1 heq.2)

theorem Op.Succeeds.addPod (hR : Inventory R) (hs : Sound R r)
    (hin : ∀ x ∈ (Op.addPod pod).reports, x ∈ R) (h : (Op.addPod pod).Succeeds env r) :
    AddEffect r pod ((Op.addPod pod).step env r) ∧
      AddBinds r pod ((Op.addPod pod).step env r) := by
  have hend : Ends (addPodContainerFromNri env pod r) _ _ :=
    (addPodContainerFromNri_ends (hs.oneName_podMetas hR hin)).and h
  refine Ends.after (P := fun r' => AddEffect r pod r' ∧ AddBinds r pod r') (hend.mono ?_ ?_)
  · exact fun _ _ h => h.1
  · rintro e r' ⟨⟨heff, hb | hc | hb⟩, hne⟩
    · exact absurd hb (by simp [hne])
    · exact absurd hc (hs.not_conflicts hR hin)
    · exact ⟨heff, hb⟩

theorem Op.Succeeds.removePod (h : (Op.removePod p cid).Succeeds env r) :
    RemoveEffect r p cid ((Op.removePod p cid).step env r) ∧
      RemoveUnbinds r p cid ((Op.removePod p cid).step env r) := by
  have hend := (removePodContainerFromNri_ends).and h
  refine Ends.after (P := fun r' => RemoveEffect r p cid r' ∧ RemoveUnbinds r p cid r')
    (hend.mono ?_ ?_)
  · exact fun _ _ h => h.1
  · rintro e r' ⟨⟨_, hb, _⟩, hne⟩
    exact absurd hb (by simp [hne])

end

end RuntimeEnforcer
