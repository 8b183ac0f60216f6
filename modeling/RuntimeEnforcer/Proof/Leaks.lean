import Mathlib.Data.Finset.Card
import RuntimeEnforcer.Proof.Ledger

/-!
# No leaked ids

Ids are given out inside the first loop of a reconcile, which writes under them at once, and are
recorded only after the loop has returned. A failure in between leaves contents under an id that
nothing refers to: no later operation can replace or clear it, and the next attempt takes another
one. Where no such failure happens, everything stored belongs to a recorded name, and there are at
most as many ids with contents as names that were ever reconciled.
-/

set_option autoImplicit false

namespace RuntimeEnforcer

open Lib

/-- Every id with contents is recorded for a container of a policy. -/
def Recorded (r : Resolver) : Prop :=
  ∀ id, Populated r.world.maps id → ∃ k n, r.pol k n = some id

/-- The containers an operation names. -/
def Op.named : Op → List (NamespacedPolicyName × ContainerName)
  | .reconcile wp => wp.rulesByContainer.entries.map fun e => (wp.namespacedName, e.1)
  | _ => []

def Op.Settles (env : Env) (r : Resolver) : Op → Prop
  | .reconcile wp =>
    (∀ n, wp.names n = true → (r.pol wp.namespacedName n).isSome) ∨
      wp.Acceptable env ∧ Quiet env.toManagerEnv r.world
        (after (syncWorkloadPolicy env wp (r.scope wp.namespacedName))).world
  | _ => True

def Op.isDelete : Op → Bool
  | .delete _ => true
  | _ => false

section

variable {env : Env} {r r' : Resolver} {wp : WorkloadPolicy}
  {N : List (NamespacedPolicyName × ContainerName)}

theorem Reconciles.recorded {M : Set ContainerMeta} {s : PolicyScope} {status : PolicyStatus}
    (hs : Ids r) (hop : (Op.reconcile wp).Settles env r)
    (h : Reconciles env wp M (r.scope wp.namespacedName) s status) :
    ∀ x ∈ wp.grants env (r.scope wp.namespacedName), s.polByContainer.lookup x.1 = some x.2 := by
  rcases h.failed with hw | ⟨e, herr⟩
  · exact hw.recorded
  · rcases hop with hall | ⟨hacc, hquiet⟩
    · -- nothing was given out
      intro x hx
      obtain ⟨hn, hnone⟩ := h.renumbers.names x hx
      rw [Resolver.scope_lookup] at hnone
      exact absurd (hall x.1 hn) (by simp [hnone])
    · have hfails : SyncFails env wp (r.scope wp.namespacedName) e s :=
        (syncWorkloadPolicy_ends hs.allocated).of_error herr
      rw [herr] at hquiet
      exact absurd hquiet (hfails.fails.fault hacc)

theorem Recorded.reconcile (hs : Ids r) (h : Recorded r)
    (hop : (Op.reconcile wp).Settles env r) : Recorded ((Op.reconcile wp).step env r) := by
  obtain ⟨s, status, hstep, hrec⟩ := step_reconcile env wp hs
  rw [hstep]
  intro id hp
  -- an id the policy had keeps its name, or has nothing left
  have hold : ∀ n, r.pol wp.namespacedName n = some id →
      (r.commit wp.namespacedName s status).pol wp.namespacedName n = some id := by
    intro n hid
    rw [Resolver.pol_commit, if_pos rfl]
    rcases hrec.renumbers.lost n id ((Resolver.scope_lookup n).trans hid) with hk | hclear
    · exact hk
    · exact absurd hp hclear
  rcases (hrec.renumbers.moves.maps (Sourced.refl _)).populated hp with hp₀ | ⟨n, hown | hlog⟩
  · obtain ⟨k, n, hid⟩ := h id hp₀
    by_cases hk : k = wp.namespacedName
    · exact ⟨_, n, hold n (hk ▸ hid)⟩
    · exact ⟨k, n, by rw [Resolver.pol_commit, if_neg hk, hid]⟩
  · exact ⟨_, n, hold n ((Resolver.scope_lookup n).symm.trans hown)⟩
  · refine ⟨wp.namespacedName, n, ?_⟩
    rw [Resolver.pol_commit, if_pos rfl]
    exact hrec.recorded hs hop (n, id) hlog

theorem Recorded.pods {B : Set (CgroupID × PolicyID)} (h : Recorded r) (hstep : PodStep B r r') :
    Recorded r' := by
  intro id hp
  obtain ⟨k, n, hid⟩ := h id ((hstep.sameId id).populated.mp hp)
  exact ⟨k, n, (Resolver.pol_congr hstep.wpState k n).trans hid⟩

theorem Recorded.step (hs : Ids r) (h : Recorded r) {op : Op} (hdel : op.isDelete = false)
    (hop : op.Settles env r) : Recorded (op.step env r) := by
  cases op with
  | reconcile wp => exact h.reconcile hs hop
  | delete o => exact absurd hdel (by simp [Op.isDelete])
  | addPod pod => exact h.pods step_addPod
  | removePod podID cid => exact h.pods step_removePod

/-! Names are recorded because a spec named them. -/

theorem mem_named {n : ContainerName} (hn : wp.names n = true) :
    (wp.namespacedName, n) ∈ (Op.reconcile wp).named := by
  obtain ⟨rules, hr⟩ := Option.isSome_iff_exists.mp hn
  exact List.mem_map.mpr ⟨⟨n, rules⟩, GoMap.mem_entries.mpr hr, rfl⟩

theorem named_step (hs : Ids r) (h : ∀ k n id, r.pol k n = some id → (k, n) ∈ N) {op : Op}
    (hin : ∀ x ∈ op.named, x ∈ N) :
    ∀ k n id, (op.step env r).pol k n = some id → (k, n) ∈ N := by
  intro k n id hid
  cases op with
  | reconcile wp =>
    obtain ⟨s, status, hstep, hrec⟩ := step_reconcile env wp hs
    rw [hstep, Resolver.pol_commit] at hid
    split at hid
    · next hk =>
      rcases hrec.renumbers.polFrom n id hid with hold | hlog
      · exact hk ▸ h _ n id ((Resolver.scope_lookup n).symm.trans hold)
      · exact hk ▸ hin _ (mem_named (hrec.renumbers.names _ hlog).1)
    · exact h k n id hid
  | delete o =>
    have hdel : DeleteStep o.namespacedName r ((Op.delete o).step env r) := step_delete
    rw [hdel.pol] at hid
    split at hid
    · exact absurd hid (by simp)
    · exact h k n id hid
  | addPod pod =>
    have hpod : PodStep _ r ((Op.addPod pod).step env r) := step_addPod
    exact h k n id ((Resolver.pol_congr hpod.wpState k n).symm.trans hid)
  | removePod podID cid =>
    have hpod : PodStep ∅ r ((Op.removePod podID cid).step env r) := step_removePod
    exact h k n id ((Resolver.pol_congr hpod.wpState k n).symm.trans hid)

theorem recorded_run {ops : List Op} (hdel : ∀ op ∈ ops, op.isDelete = false)
    (hops : Along (Op.step env) (fun r op => op.Settles env r) ops {}) :
    Recorded (run (Op.step env) ops {}) ∧ ∀ k n id,
      (run (Op.step env) ops {}).pol k n = some id → (k, n) ∈ ops.flatMap Op.named := by
  have hinit : Ids {} ∧ Recorded {} ∧ ∀ k n id, ({} : Resolver).pol k n = some id →
      (k, n) ∈ ops.flatMap Op.named := by
    refine ⟨Ids.init, ?_, fun k n id hid => absurd hid (by simp [Resolver.pol])⟩
    rintro id (⟨i, hi⟩ | hset)
    · exact absurd hi (by simp [BpfMaps.empty])
    · exact absurd hset (by simp [BpfMaps.empty])
  have hin : Along (Op.step env) (fun _ op => op.isDelete = false ∧
      ∀ x ∈ op.named, x ∈ ops.flatMap Op.named) ops {} :=
    along_of_forall fun op hop => ⟨hdel op hop, fun x hx => List.mem_flatMap.mpr ⟨op, hop, hx⟩⟩
  refine (run_inv (I := fun r => Ids r ∧ Recorded r ∧ ∀ k n id, r.pol k n = some id →
    (k, n) ∈ ops.flatMap Op.named) ?_ hinit (hops.and hin)).2
  rintro r op ⟨hs, hrec, hN⟩ ⟨hset, hnd, hin⟩
  exact ⟨hs.step op, hrec.step hs hnd hset, named_step hs hN hin⟩

theorem Recorded.card_le (h : Recorded r) (hN : ∀ k n id, r.pol k n = some id → (k, n) ∈ N)
    {ids : Finset PolicyID} (hids : ∀ id ∈ ids, Populated r.world.maps id) :
    ids.card ≤ N.toFinset.card := by
  have hex : ∀ id ∈ ids, ∃ x : NamespacedPolicyName × ContainerName, r.pol x.1 x.2 = some id := by
    intro id hid
    obtain ⟨k, n, hkn⟩ := h id (hids id hid)
    exact ⟨(k, n), hkn⟩
  choose! f hf using hex
  refine Finset.card_le_card_of_injOn f (fun id hid => ?_) fun id hid id' hid' heq => ?_
  · exact List.mem_toFinset.mpr (hN _ _ id (hf id hid))
  · have hid₁ := hf id hid
    rw [heq, hf id' hid'] at hid₁
    exact (Option.some.inj hid₁).symm

end

/-- **No leak.** In every run without deletions whose reconciles all settle, every id with contents
is recorded, and there are at most as many of them as containers named. -/
theorem populated_recorded {env : Env} {ops : List Op} (hdel : ∀ op ∈ ops, op.isDelete = false)
    (hops : Along (Op.step env) (fun r op => op.Settles env r) ops {}) :
    (∀ id, Populated (run (Op.step env) ops {}).world.maps id →
      ∃ k n, (run (Op.step env) ops {}).pol k n = some id) ∧
    ∀ ids : Finset PolicyID, (∀ id ∈ ids, Populated (run (Op.step env) ops {}).world.maps id) →
      ids.card ≤ (ops.flatMap Op.named).toFinset.card := by
  obtain ⟨hrec, hN⟩ := recorded_run hdel hops
  exact ⟨hrec, fun ids hids => hrec.card_le hN hids⟩

namespace Sample

def shOnly : WorkloadPolicy := webApp .monitor ["/bin/sh".toUTF8.toList]

theorem shOnly_names {n : ContainerName} (h : shOnly.names n = true) : n = "app" := by
  unfold WorkloadPolicy.names shOnly webApp at h
  rw [GoMap.lookup_insert_eq] at h
  by_cases hn : n = "app"
  · exact hn
  · simp [hn] at h

theorem shOnly_acceptable (env : Env) (hver : isKernelPre5_9 env.toManagerEnv = false)
    (hv : ValidValue env.currKernelVersion "/bin/sh".toUTF8.toList) : shOnly.Acceptable env := by
  intro n rules hr
  have hn : n = "app" := shOnly_names (WorkloadPolicy.names_of_lookup hr)
  subst hn
  obtain rfl : _ = rules := Option.some.inj hr
  exact acceptable_of_valid hver (by simpa using hv)

/-- The rules are written once, and a second attempt to write them fails. -/
theorem populated_recorded_shOnly :
    (∀ id, Populated (run (Op.step (.failsAt 6)) [.reconcile shOnly, .reconcile shOnly]
        {}).world.maps id →
      ∃ k n, (run (Op.step (.failsAt 6)) [.reconcile shOnly, .reconcile shOnly] {}).pol k n
        = some id) ∧
    ∀ ids : Finset PolicyID,
      (∀ id ∈ ids, Populated (run (Op.step (.failsAt 6)) [.reconcile shOnly, .reconcile shOnly]
        {}).world.maps id) →
      ids.card ≤ (List.flatMap Op.named [.reconcile shOnly, .reconcile shOnly]).toFinset.card := by
  have hquiet : Quiet (Env.failsAt 6).toManagerEnv ({} : Resolver).world (after
      (syncWorkloadPolicy (.failsAt 6) shOnly
        (Resolver.scope {} shOnly.namespacedName))).world := by
    intro t _ ht
    have hclock : (after (syncWorkloadPolicy (.failsAt 6) shOnly
        (Resolver.scope {} shOnly.namespacedName))).world.clock = 4 := by decide +kernel
    rw [hclock] at ht
    exact if_neg (by omega)
  refine populated_recorded (by simp [Op.isDelete])
    ⟨.inr ⟨shOnly_acceptable _ (by decide) (by decide +kernel), hquiet⟩,
      .inl fun n hn => ?_, trivial⟩
  rw [shOnly_names hn]
  decide +kernel

/-- Every fourth call fails. -/
def everyFourth : Env := Env.failsWhen (· % 4 = 3)

def attempts : List Op := [.reconcile shOnly, .reconcile shOnly, .reconcile shOnly]

/-- The list is written and the settings are not, three times: each attempt takes another id and
leaves it. -/
theorem three_leaked :
    (∀ id ∈ [1, 2, 3], Populated (run (Op.step everyFourth) attempts {}).world.maps id) ∧
    ∀ k n, (run (Op.step everyFourth) attempts {}).pol k n = none := by
  refine ⟨by decide +kernel, fun k n => ?_⟩
  have hempty : ∀ e ∈ (run (Op.step everyFourth) attempts {}).wpState.entries,
      e.2.polByContainer.entries = [] := by decide +kernel
  unfold Resolver.pol
  cases hk : (run (Op.step everyFourth) attempts {}).wpState.lookup k with
  | none => rfl
  | some info =>
    refine Option.eq_none_iff_forall_ne_some.mpr fun id hid => ?_
    have hmem := GoMap.mem_entries.mpr hid
    rw [hempty ⟨k, info⟩ (GoMap.mem_entries.mpr hk)] at hmem
    exact absurd hmem (by simp)

end Sample

end RuntimeEnforcer
