import RuntimeEnforcer.Proof.Enforced
import RuntimeEnforcer.Proof.Ledger

/-!
# The status is honest

A policy is reported ready only while every container of its last spec has an id with the spec's
rules. A reconcile sets the status last, and nothing later touches the ids of a policy but an
operation on that policy: its reconcile sets the status anew and its deletion drops the entry. So
the status outlives any failure elsewhere. Nothing is assumed about the containers reported, and any
call may fail.
-/

set_option autoImplicit false

namespace RuntimeEnforcer

open Lib

/-- Every policy that is reported ready has its last spec's rules stored. -/
def Honest (env : Env) (n : Node) : Prop :=
  ∀ k info, n.resolver.wpState.lookup k = some info → info.status.state = .ready →
    ∃ wp, n.specs k = some wp ∧ info.status.mode = wp.mode.toProto ∧
      ∀ name rules, wp.rulesByContainer.lookup name = some rules →
        ∃ id, n.resolver.pol k name = some id ∧ Carries env wp rules n.resolver.world.maps id

section

variable {env : Env} {n : Node}

theorem Honest.keep {n' : Node} {k : NamespacedPolicyName} {info : WpInfo} (h : Honest env n)
    (hinfo : n.resolver.wpState.lookup k = some info) (hready : info.status.state = .ready)
    (hspecs : n'.specs k = n.specs k)
    (hpol : ∀ name, n'.resolver.pol k name = n.resolver.pol k name)
    (hids : ∀ name id, n.resolver.pol k name = some id →
      SameId id n.resolver.world.maps n'.resolver.world.maps) :
    ∃ wp, n'.specs k = some wp ∧ info.status.mode = wp.mode.toProto ∧
      ∀ name rules, wp.rulesByContainer.lookup name = some rules →
        ∃ id, n'.resolver.pol k name = some id ∧
          Carries env wp rules n'.resolver.world.maps id := by
  obtain ⟨wp, hwp, hmode, hrules⟩ := h k info hinfo hready
  refine ⟨wp, hspecs.trans hwp, hmode, fun name rules hr => ?_⟩
  obtain ⟨id, hid, hc⟩ := hrules name rules hr
  exact ⟨id, (hpol name).trans hid, hc.of_sameId (hids name id hid)⟩

theorem Honest.reconcile (hs : Ids n.resolver) (h : Honest env n) (wp : WorkloadPolicy) :
    Honest env (n.step env (.reconcile wp)) := by
  obtain ⟨s, status, hstep, hrec⟩ := step_reconcile env wp hs
  have hown := hrec.renumbers.own hs.allocated
  have hres : (n.step env (.reconcile wp)).resolver
      = n.resolver.commit wp.namespacedName s status := hstep
  have hspecs : (n.step env (.reconcile wp)).specs
      = Function.update n.specs wp.namespacedName (some wp) := rfl
  intro k info hinfo hready
  rw [hres] at hinfo
  unfold Resolver.commit at hinfo
  rw [GoMap.lookup_insert_eq] at hinfo
  by_cases hk : k = wp.namespacedName
  · -- the policy itself: the status is the one this reconcile has set
    rw [if_pos hk] at hinfo
    obtain rfl := Option.some.inj hinfo
    obtain ⟨hmode, hw⟩ := hrec.ready hready
    refine ⟨wp, by rw [hspecs, hk, Function.update_self], hmode, fun name rules hr => ?_⟩
    rw [hres]
    simp only [Resolver.pol_commit, if_pos hk]
    exact hw.carries name rules hr
  · rw [if_neg hk] at hinfo
    refine h.keep hinfo hready (by rw [hspecs, Function.update_of_ne hk]) (fun name => ?_) ?_
    · rw [hres, Resolver.pol_commit, if_neg hk]
    · intro name id hid
      rw [hres]
      refine hown.kept id (hs.lt k name id hid) fun name' hid' => hk ?_
      exact (hs.inj _ _ _ _ id hid (Resolver.scope_lookup name' ▸ hid')).1

theorem Honest.delete (hs : Ids n.resolver) (h : Honest env n) (o : ObjectMeta) :
    Honest env (n.step env (.delete o)) := by
  have hdel : DeleteStep o.namespacedName n.resolver (n.step env (.delete o)).resolver :=
    step_delete
  intro k info hinfo hready
  rw [hdel.wpState] at hinfo
  split at hinfo
  · exact absurd hinfo (by simp)
  · next hk =>
    refine h.keep hinfo hready (Function.update_of_ne hk _ _) (fun name => ?_) ?_
    · rw [hdel.pol, if_neg hk]
    · exact fun name id hid => hdel.sameId fun name' hid' => hk (hs.inj _ _ _ _ id hid hid').1

theorem Honest.pods {r' : Resolver} {B : Set (CgroupID × PolicyID)} (h : Honest env n)
    (hstep : PodStep B n.resolver r') : Honest env { n with resolver := r' } := by
  intro k info hinfo hready
  exact h.keep (hstep.wpState ▸ hinfo) hready rfl (Resolver.pol_congr hstep.wpState k)
    fun _ id _ => hstep.sameId id

/-- **Every operation keeps the status honest**, whatever fails. -/
theorem Honest.step (hs : Ids n.resolver) (h : Honest env n) (op : Op) :
    Honest env (n.step env op) := by
  cases op with
  | reconcile wp => exact h.reconcile hs wp
  | delete o => exact h.delete hs o
  | addPod pod => exact h.pods step_addPod
  | removePod podID cid => exact h.pods step_removePod

theorem honest_run (env : Env) (ops : List Op) : Honest env (run (Node.step env) ops {}) := by
  have hinit : Ids ({} : Node).resolver ∧ Honest env {} :=
    ⟨Ids.init, fun k info hinfo => absurd hinfo (by simp)⟩
  refine (run_inv (C := fun _ _ => True) (I := fun n => Ids n.resolver ∧ Honest env n) ?_ hinit
    (along_of_forall fun _ _ => trivial)).2
  exact fun n op hn _ => ⟨hn.1.step op, hn.2.step hn.1 op⟩

end

/-- **A reported status is honest.** In every state of every run, a policy reported ready has, for
each container of its last spec, an id under which exactly the spec's list is stored, with the mode
reported and the container's foreign-root option. -/
theorem ready_honest {env : Env} {ops : List Op} {k : NamespacedPolicyName} {status : PolicyStatus}
    (h : (run (Node.step env) ops {}).resolver.getPolicyStatuses.lookup k = some status)
    (hready : status.state = .ready) :
    ∃ wp, (run (Node.step env) ops {}).specs k = some wp ∧ status.mode = wp.mode.toProto ∧
      ∀ name rules, wp.rulesByContainer.lookup name = some rules →
        ∃ id, (run (Node.step env) ops {}).resolver.pol k name = some id ∧
          (run (Node.step env) ops {}).resolver.world.maps.policySettings id
            = some (settingsOf wp.mode rules.allowForeignRootExec) ∧
          Holds (run (Node.step env) ops {}).resolver.world.maps id rules.allowed := by
  unfold Resolver.getPolicyStatuses at h
  rw [GoMap.lookup_map] at h
  obtain ⟨info, hinfo, rfl⟩ := Option.map_eq_some_iff.mp h
  obtain ⟨wp, hwp, hmode, hrules⟩ := honest_run env ops k info hinfo hready
  refine ⟨wp, hwp, hmode, fun name rules hr => ?_⟩
  obtain ⟨id, hid, hc⟩ := hrules name rules hr
  exact ⟨id, hid, hc.settings, holds_of_newClass hc.valid hc.strings⟩

/-- What the probe has accepted is ready, with the mode that is listed. -/
theorem hasSynced_ok {statuses : GoMap NamespacedPolicyName PolicyStatus}
    {wps : List WorkloadPolicy} (h : hasSynced statuses wps = .ok ()) {wp : WorkloadPolicy}
    (hwp : wp ∈ wps) : ∃ status, statuses.lookup wp.namespacedName = some status ∧
      status.state = .ready ∧ status.mode = wp.mode.toProto := by
  induction wps with
  | nil => exact absurd hwp (by simp)
  | cons wp' wps ih =>
    unfold hasSynced at h
    cases hl : statuses.lookup wp'.namespacedName with
    | none => simp [hl] at h
    | some status =>
      simp only [hl] at h
      split at h
      · exact absurd h (by simp)
      · split at h
        · exact absurd h (by simp)
        · next hready hmode =>
          rcases List.mem_cons.mp hwp with rfl | hmem
          · exact ⟨status, hl, by simpa using hready, by simpa using hmode⟩
          · exact ih h hmem

/-- Once the probe succeeds, every policy listed enforces some spec in the mode listed. -/
theorem hasSynced_honest {env : Env} {ops : List Op} {wps : List WorkloadPolicy}
    (h : hasSynced (run (Node.step env) ops {}).resolver.getPolicyStatuses wps = .ok ())
    {wp : WorkloadPolicy} (hwp : wp ∈ wps) :
    ∃ wp', (run (Node.step env) ops {}).specs wp.namespacedName = some wp' ∧
      wp'.mode = wp.mode ∧ ∀ name rules, wp'.rulesByContainer.lookup name = some rules →
        ∃ id, (run (Node.step env) ops {}).resolver.pol wp.namespacedName name = some id ∧
          Carries env wp' rules (run (Node.step env) ops {}).resolver.world.maps id := by
  obtain ⟨status, hl, hready, hmode⟩ := hasSynced_ok h hwp
  unfold Resolver.getPolicyStatuses at hl
  rw [GoMap.lookup_map] at hl
  obtain ⟨info, hinfo, rfl⟩ := Option.map_eq_some_iff.mp hl
  obtain ⟨wp', hwp', hmode', hrules⟩ := honest_run env ops _ info hinfo hready
  refine ⟨wp', hwp', ?_, hrules⟩
  rw [hmode'] at hmode
  cases hm : wp'.mode <;> cases hm' : wp.mode <;> simp_all [Mode.toProto]

namespace Sample

/-- The policy is ready, then its new rules cannot all be written, then they are. -/
def rewritten : List Op :=
  [.reconcile (webApp .monitor ["/bin/sh".toUTF8.toList]),
    .reconcile (webApp .protect ["/bin/ls".toUTF8.toList]),
    .reconcile (webApp .protect ["/bin/ls".toUTF8.toList])]

/-- The third reconcile has put things right after the second failed. -/
theorem ready_honest_rewritten :
    ∃ wp, (run (Node.step (.failsAt 14)) rewritten {}).specs "default/web" = some wp ∧
      PolicyMode.protect = wp.mode.toProto ∧
      ∀ name rules, wp.rulesByContainer.lookup name = some rules →
        ∃ id,
          (run (Node.step (.failsAt 14)) rewritten {}).resolver.pol "default/web" name = some id ∧
          (run (Node.step (.failsAt 14)) rewritten {}).resolver.world.maps.policySettings id
            = some (settingsOf wp.mode rules.allowForeignRootExec) ∧
          Holds (run (Node.step (.failsAt 14)) rewritten {}).resolver.world.maps id rules.allowed :=
  have h : (run (Node.step (.failsAt 14)) rewritten {}).resolver.getPolicyStatuses.lookup
      "default/web" = some ⟨.ready, .protect, ""⟩ := by decide +kernel
  ready_honest h rfl

end Sample

end RuntimeEnforcer
