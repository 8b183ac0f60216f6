import RuntimeEnforcer.Proof.PolicyHandler

/-!
# When the plugin can be synchronised

`Synchronize` adds the pods of the node one after the other and stops at the first that cannot be
added. A pod whose label names a policy that the resolver does not know cannot be, so it depends on
the other pods of the node whether a pod is protected: as long as one of them names a policy that
does not exist, no attempt succeeds, and the runtime starts containers without asking.

The result is about one attempt, and asks of the kernel only that the calls of that attempt succeed
(`SyncSucceeds`). Calls that failed before may have left anything behind, but nothing that decides
whether a pod can be added: a pod in the cache is one the runtime has reported (`placed_entryOf`),
and which policies the resolver knows depends on the policies alone (`recorded_of_idle`).
-/

set_option autoImplicit false

namespace RuntimeEnforcer.Nri

open Lib Workloadpolicyhandler

/-- The pod names no policy, or one that the resolver knows. -/
def Placed (r : Resolver) (pm : PodMeta) : Prop :=
  pm.policyName = "" ∨ (r.wpState.lookup pm.policyKey).isSome

section

variable {env : Env} {failOpen : Bool} {s : Runtime} {input : PodInput}

/-! ## One pod -/

theorem applyPolicyToPodIfPresent_outcome {wpState : GoMap NamespacedPolicyName WpInfo} {w : World}
    {st : PodEntry} (hone : OneName st.metas) :
    Ends (applyPolicyToPodIfPresent env wpState st w)
      (fun _ _ => st.podMeta.policyName = "" ∨ (wpState.lookup st.podMeta.policyKey).isSome)
      (fun e _ => e.isBpf = true ∨
        ¬ (st.podMeta.policyName = "" ∨ (wpState.lookup st.podMeta.policyKey).isSome)) := by
  by_cases hlabel : st.policyName = ""
  · unfold applyPolicyToPodIfPresent
    rw [if_pos hlabel]
    exact ends_ok.mpr (.inl hlabel)
  · cases hinfo : wpState.lookup st.podMeta.policyKey with
    | none =>
      unfold applyPolicyToPodIfPresent
      rw [if_neg hlabel, hinfo]
      exact ends_error.mpr (.inr fun h => h.elim hlabel (by simp))
    | some info =>
      refine (applyPolicyToPodIfPresent_ends hone).mono (fun _ _ _ => .inr rfl) fun e w h => .inl ?_
      exact h.2.resolve_right (by simp [hinfo])

/-- A pod is added unless a call fails, it is reported otherwise than before, or its policy is not
known. -/
theorem addPodContainerFromNri_outcome {r : Resolver} (hone : OneName (podMetas r input)) :
    Ends (addPodContainerFromNri env input r)
      (fun _ _ => Placed r (r.entryOf input).podMeta)
      (fun e _ => e.isBpf = true ∨ r.Conflicts input ∨ ¬ Placed r (r.entryOf input).podMeta) := by
  unfold addPodContainerFromNri
  refine Ends.bind (ends_ok.mpr ?_)
  have hk := starts_getD r input
  refine Ends.bind ((addContainers_ends hk).mono ?_ ?_)
  · intro st r' h
    refine Ends.bind (ends_ok.mpr (Ends.bind (ends_ok.mpr (Ends.zoom ?_))))
    have hst : OneName st.metas := fun c hc c' hc' =>
      hone c (h.metas_sub hk hc) c' (h.metas_sub hk hc')
    have hplaced : (st.podMeta.policyName = "" ∨
        (r'.wpState.lookup st.podMeta.policyKey).isSome) ↔ Placed r (r.entryOf input).podMeta := by
      rw [h.podMeta, h.wpState]
      rfl
    refine (applyPolicyToPodIfPresent_outcome hst).mono (fun _ _ h => hplaced.mp h) fun e _ h => ?_
    exact h.imp id fun hno => .inr (hplaced.not.mp hno)
  · intro e r' ⟨he, _⟩
    refine he.imp id fun ⟨cid, ci, info, hci, hinfo, hne⟩ => .inl ?_
    rcases hk with ⟨_, hnone⟩ | hk
    · exact absurd hinfo (by simp [hnone])
    · exact ⟨_, cid, ci, info, hci, ⟨_, hk, rfl, hinfo⟩, hne⟩

theorem Contract.left {ops more : List Op} (h : Contract (ops ++ more)) : Contract ops where
  inventory a ha b hb := h.inventory a (by simp [List.flatMap_append, ha]) b
    (by simp [List.flatMap_append, hb])
  podsAgree a b ha hb := h.podsAgree a b (List.mem_append_left _ ha) (List.mem_append_left _ hb)

theorem placed_entryOf (ht : Traced env s) (hcontract : Contract (s.trace ++ [.addPod input])) :
    Placed s.resolver (s.resolver.entryOf input).podMeta ↔ Placed s.resolver input.podMeta := by
  unfold Resolver.entryOf
  cases hentry : s.resolver.podCache.lookup input.podMeta.id with
  | none => exact Iff.rfl
  | some entry =>
    have hres : (run (Audit.step env) s.trace {}).resolver = s.resolver :=
      (map_run Audit.resolver (fun _ _ => rfl) s.trace {}).trans ht.symm
    have haud : Audited (s.trace ++ [.addPod input]) (run (Audit.step env) s.trace {}) :=
      audited_run hcontract.podsAgree fun _ hop => List.mem_append_left _ hop
    obtain ⟨first, hfirst, hid, hmeta⟩ := (haud.cache _ entry (hres ▸ hentry)).pod
    obtain ⟨hns, hname⟩ := hcontract.podsAgree first input hfirst (by simp) hid
    unfold Placed PodMeta.policyKey
    rw [Option.getD_some, hmeta, hns, hname]

/-- **A pod is added if and only if its policy is known.** -/
theorem added_iff (ht : Traced env s) (hcontract : Contract (s.trace ++ [.addPod input]))
    (hsucceeds : (Op.addPod input).Succeeds env s.resolver) :
    isOk (addPodContainerFromNri env input s.resolver) = true ↔
      Placed s.resolver input.podMeta := by
  have hin : ∀ x ∈ (Op.addPod input).reports,
      x ∈ (s.trace ++ [Op.addPod input]).flatMap Op.reports := by
    intro x hx
    simp [List.flatMap_append, hx]
  have hsound : Sound ((s.trace ++ [Op.addPod input]).flatMap Op.reports) s.resolver := by
    rw [show s.resolver = _ from ht]
    refine Sound.run hcontract.inventory (fun x hx => ?_) Sound.init
    simp [List.flatMap_append, hx]
  rw [← placed_entryOf ht hcontract]
  have hend : Ends (addPodContainerFromNri env input s.resolver) _ _ :=
    (addPodContainerFromNri_outcome (hsound.oneName_podMetas hcontract.inventory hin)).and hsucceeds
  cases hadd : addPodContainerFromNri env input s.resolver with
  | ok u r => exact iff_of_true rfl (hend.of_ok hadd).1
  | error e r =>
    refine iff_of_false (by simp [isOk]) ?_
    obtain ⟨hwhy, hnot⟩ := hend.of_error hadd
    rcases hwhy with hbpf | hconflict | hplaced
    · exact absurd hbpf (by simp [hnot])
    · exact absurd hconflict (hsound.not_conflicts hcontract.inventory hin)
    · exact hplaced

/-! ## One attempt -/

theorem asks_run (env : Env) (failOpen : Bool) (s : Runtime) (ops : List RuntimeOp)
    (hops : ∀ op ∈ ops, onPods op = true) :
    ∃ calls, Asks env s (run (Runtime.step env failOpen) ops s) calls := by
  induction ops generalizing s with
  | nil => exact ⟨[], .nothing rfl rfl⟩
  | cons op ops ih =>
    obtain ⟨first, hfirst⟩ := asks_step env failOpen s (hops op (by simp))
    obtain ⟨rest, hrest⟩ := ih (s.step env failOpen op)
      fun op' hop' => hops op' (List.mem_cons_of_mem _ hop')
    exact ⟨first ++ rest, hfirst.trans hrest⟩

theorem run_syncPod_over (h : ∀ rest, s.stage ≠ .syncing rest) (n : Nat) :
    run (Runtime.step env failOpen) (List.replicate n .syncPod) s = s := by
  induction n with
  | zero => rfl
  | succ n ih =>
    have hstep : s.step env failOpen .syncPod = s := by
      show s.syncPod env = s
      unfold Runtime.syncPod
      cases hstage : s.stage with
      | syncing rest => exact absurd hstage (h rest)
      | disconnected => rfl
      | ready => rfl
    rw [List.replicate_succ]
    show run _ _ (s.step env failOpen .syncPod) = s
    rw [hstep]
    exact ih

abbrev syncPods (n : Nat) : List RuntimeOp := List.replicate n .syncPod

theorem contract_syncPods {n : Nat}
    (h : Contract (run (Runtime.step env failOpen) (syncPods n) s).trace) : Contract s.trace := by
  obtain ⟨calls, hcalls⟩ := asks_run env failOpen s (syncPods n) fun op hop => by
    rw [List.eq_of_mem_replicate hop]
    rfl
  rw [hcalls.trace] at h
  exact h.left

/-- The pod that a synchronisation adds next. -/
def Runtime.nextPod (s : Runtime) : Option PodInput :=
  match s.stage with
  | .syncing (input :: _) => some input
  | _ => none

/-- No call to the kernel fails for the pod that is added. -/
def SyncSucceeds (env : Env) (s : Runtime) : RuntimeOp → Prop
  | .syncPod => ∀ input ∈ s.nextPod, (Op.addPod input).Succeeds env s.resolver
  | _ => True

instance (env : Env) (s : Runtime) (op : RuntimeOp) : Decidable (SyncSucceeds env s op) :=
  match op with
  | .syncPod => inferInstanceAs
      (Decidable (∀ input ∈ s.nextPod, (Op.addPod input).Succeeds env s.resolver))
  | .connect .. | .disconnect | .start .. | .remove .. | .reconcile .. | .delete .. =>
    .isTrue trivial

theorem syncPods_ready_iff {rest : List PodInput} (hstage : s.stage = .syncing rest)
    (ht : Traced env s) {n : Nat} (hn : rest.length ≤ n)
    (hcontract : Contract (run (Runtime.step env failOpen) (syncPods (n + 1)) s).trace)
    (hsucceeds : Along (Runtime.step env failOpen) (SyncSucceeds env) (syncPods (n + 1)) s) :
    (run (Runtime.step env failOpen) (syncPods (n + 1)) s).stage = .ready ↔
      ∀ input ∈ rest, Placed s.resolver input.podMeta := by
  -- the first pod, and then the induction hypothesis for the others
  have hrun : run (Runtime.step env failOpen) (syncPods (n + 1)) s
      = run (Runtime.step env failOpen) (syncPods n) (s.syncPod env) := rfl
  rw [hrun] at hcontract ⊢
  clear hrun
  induction rest generalizing s n with
  | nil =>
    have hready : (s.syncPod env).stage = .ready := by simp [Runtime.syncPod, hstage]
    rw [run_syncPod_over (by simp [hready])]
    exact iff_of_true hready (by simp)
  | cons input rest ih =>
    have hasked : (s.syncPod env).trace = s.trace ++ [.addPod input] := by
      simp only [Runtime.syncPod, hstage]
      cases addPodContainerFromNri env input s.resolver <;> rfl
    have hadded := added_iff ht (hasked ▸ contract_syncPods hcontract)
      (hsucceeds.1 input (by simp [Runtime.nextPod, hstage]))
    cases hadd : addPodContainerFromNri env input s.resolver with
    | error e r =>
      have hoff : (s.syncPod env).stage = .disconnected := by
        simp [Runtime.syncPod, hstage, hadd]
      rw [run_syncPod_over (by simp [hoff])]
      refine iff_of_false (by simp [hoff]) fun hall => ?_
      exact absurd (hadded.mpr (hall input (by simp))) (by simp [hadd, isOk])
    | ok u r =>
      obtain ⟨n, rfl⟩ : ∃ k, n = k + 1 :=
        Nat.exists_eq_add_one.mpr (Nat.lt_of_lt_of_le (by simp) hn)
      have hnext : (s.syncPod env).stage = .syncing rest := by simp [Runtime.syncPod, hstage, hadd]
      have hres : (s.syncPod env).resolver = (Op.addPod input).step env s.resolver := by
        simp only [Runtime.syncPod, hstage, hadd]
        rfl
      have htraced : Traced env (s.syncPod env) := by
        unfold Traced
        rw [hres, hasked, run_append, ← show s.resolver = _ from ht]
        rfl
      have hsame : ∀ pm, Placed (s.syncPod env).resolver pm ↔ Placed s.resolver pm := by
        intro pm
        unfold Placed
        rw [hres, step_addPod.wpState]
      refine (ih hnext htraced (Nat.le_of_succ_le_succ hn) hcontract hsucceeds.2).trans ?_
      have hfirst := hadded.mp (by simp [hadd, isOk])
      simp only [hsame, List.forall_mem_cons, hfirst, true_and]

/-! ## What is handed over -/

/-- The first loop goes through if every cgroup is resolved, and then it has a group for each
sandbox that has a container. -/
theorem foldlM_groupContainer_isSome {failing : Failing} {l : List Container}
    (hresolves : ∀ c ∈ l, failing c.id = none) (tmp : Sandboxes) :
    ∃ tmp', l.foldlM (groupContainer failing) tmp = .ok tmp' ∧
      ∀ id, (tmp'.lookup id).isSome ↔ (tmp.lookup id).isSome ∨ ∃ c ∈ l, c.podSandboxID = id := by
  induction l generalizing tmp with
  | nil => exact ⟨tmp, rfl, by simp⟩
  | cons c l ih =>
    obtain ⟨tmp', hfold, hsome⟩ := ih (fun c' hc' => hresolves c' (List.mem_cons_of_mem _ hc'))
      (tmp.insert c.podSandboxID (((tmp.lookup c.podSandboxID).getD ∅).insert c.id c.input))
    refine ⟨tmp', ?_, fun id => ?_⟩
    · rw [List.foldlM_cons]
      simp only [groupContainer, resolveCgroupID, hresolves c (by simp)]
      exact hfold
    · rw [hsome, GoMap.lookup_insert_eq]
      by_cases hid : id = c.podSandboxID
      · simp [hid]
      · simp [hid, Ne.symm hid]

theorem synchronize_ok {failing : Failing} (pods : List (Option PodSandbox))
    {containers : List Container} (hresolves : ∀ c ∈ containers, failing c.id = none) :
    ∃ inputs, synchronize failing pods containers = .ok inputs ∧ inputs.length ≤ pods.length ∧
      ∀ P : PodMeta → Prop, (∀ input ∈ inputs, P input.podMeta) ↔
        ∀ pod, some pod ∈ pods → (∃ c ∈ containers, c.podSandboxID = pod.id) →
          P (podSandboxToPodMeta pod) := by
  obtain ⟨tmp, hfold, hsome⟩ := foldlM_groupContainer_isSome hresolves ∅
  refine ⟨pods.filterMap (podData tmp), by simp [synchronize, hfold], List.length_filterMap_le _ _,
    fun P => ⟨fun h pod hpod hc => ?_, fun h input hinput => ?_⟩⟩
  · obtain ⟨group, hgroup⟩ := Option.isSome_iff_exists.mp ((hsome pod.id).mpr (.inr hc))
    refine h ⟨podSandboxToPodMeta pod, group⟩ (List.mem_filterMap.mpr ⟨some pod, hpod, ?_⟩)
    simp [podData, hgroup]
  · obtain ⟨pod, hpod, hdata⟩ := List.mem_filterMap.mp hinput
    obtain ⟨pod, rfl, hdata⟩ := Option.bind_eq_some_iff.mp hdata
    obtain ⟨group, hgroup, rfl⟩ := Option.map_eq_some_iff.mp hdata
    refine h pod hpod (((hsome pod.id).mp (by simp [hgroup])).resolve_left (by simp))

/-- The runtime connects, and `Synchronize` runs without anything in between. -/
def attempt (failing : Failing) (pods : List (Option PodSandbox)) (containers : List Container) :
    List RuntimeOp :=
  .connect failing pods containers :: syncPods (pods.length + 1)

theorem attempt_ready_iff (hoff : s.stage = .disconnected) (ht : Traced env s) {failing : Failing}
    {pods : List (Option PodSandbox)} {containers : List Container}
    (hresolves : ∀ c ∈ containers, failing c.id = none)
    (hcontract : Contract
      (run (Runtime.step env failOpen) (attempt failing pods containers) s).trace)
    (hsucceeds : Along (Runtime.step env failOpen) (SyncSucceeds env)
      (attempt failing pods containers) s) :
    (run (Runtime.step env failOpen) (attempt failing pods containers) s).stage = .ready ↔
      ∀ pod, some pod ∈ pods → (∃ c ∈ containers, c.podSandboxID = pod.id) →
        Placed s.resolver (podSandboxToPodMeta pod) := by
  obtain ⟨inputs, hsync, hlen, hinputs⟩ := synchronize_ok pods hresolves
  have hconnect : s.step env failOpen (.connect failing pods containers)
      = { s with stage := .syncing inputs } := by
    show s.connect failing pods containers = _
    simp only [Runtime.connect, hoff, hsync]
  have hrun : run (Runtime.step env failOpen) (attempt failing pods containers) s
      = run (Runtime.step env failOpen) (syncPods (pods.length + 1))
        { s with stage := .syncing inputs } := by
    rw [← hconnect]
    rfl
  have htraced : Traced env { s with stage := .syncing inputs } := ht
  rw [hrun] at hcontract ⊢
  exact (syncPods_ready_iff rfl htraced hlen hcontract (hconnect ▸ hsucceeds.2)).trans (hinputs _)

end

end RuntimeEnforcer.Nri

namespace RuntimeEnforcer.Workloadpolicyhandler

open Lib LevelTriggered Nri

/-- **A node can be synchronised if and only if every pod on it names a policy that exists.** In
every run of a cluster and a node, once the handler has nothing left to do: an attempt to
synchronise, in which every cgroup is resolved and no call to the kernel fails, succeeds if and only
if each pod that has a container names no policy or one that the cluster stores. One pod that does
not keeps the node from being synchronised, however often it is tried. The calls before the attempt
may have failed as they like, and the API server may number its policies as it likes. -/
theorem synchronizes_iff {env : Env} {failOpen : Bool} (steps : List ClusterStep) {m : Cluster}
    (hm : run (Cluster.step env failOpen) steps { state := {} } = m)
    (hsteps : ∀ st ∈ steps, PodsOnly st) (hidle : m.Idle)
    (hoff : m.state.stage = .disconnected) {failing : Failing} {pods : List (Option PodSandbox)}
    {containers : List Container} (hresolves : ∀ c ∈ containers, failing c.id = none)
    (hcontract : Contract
      (run (Runtime.step env failOpen) (attempt failing pods containers) m.state).trace)
    (hsucceeds : Along (Runtime.step env failOpen) (SyncSucceeds env)
      (attempt failing pods containers) m.state) :
    (run (Runtime.step env failOpen) (attempt failing pods containers) m.state).stage = .ready ↔
      ∀ pod, some pod ∈ pods → (∃ c ∈ containers, c.podSandboxID = pod.id) →
        (podSandboxToPodMeta pod).policyName = "" ∨
          ∃ req o, m.store req = some o ∧
            (podSandboxToPodMeta pod).policyKey = req.namespacedName := by
  subst hm
  obtain ⟨htraced, hrecorded⟩ := recorded_of_idle hsteps hidle
  rw [attempt_ready_iff hoff htraced hresolves hcontract hsucceeds]
  refine forall_congr' fun pod => imp_congr_right fun _ => imp_congr_right fun _ =>
    or_congr Iff.rfl ?_
  rw [hrecorded]
  constructor
  · rintro ⟨req, hkey, hsome⟩
    obtain ⟨o, ho⟩ := Option.isSome_iff_exists.mp hsome
    exact ⟨req, o, ho, hkey⟩
  · rintro ⟨req, o, ho, hkey⟩
    exact ⟨req, hkey, by simp [ho]⟩

namespace Sample

open RuntimeEnforcer.Sample Nri.Sample

def plain : PodSandbox := { sandbox with id := "s2", uid := "b", name := "b", labels := ∅ }

def job : Container := ⟨"c2", "s2", "job", 8, ""⟩

/-- The policy of one of the two pods does not exist, so neither is watched. -/
theorem synchronizes_missing : (run (Runtime.step .calm false)
    (attempt (fun _ => none) [some plain, some sandbox] [job, app]) {}).stage ≠ .ready := by
  intro hready
  have hcontract : Contract (run (Runtime.step .calm false)
      (attempt (fun _ => none) [some plain, some sandbox] [job, app]) {}).trace :=
    ⟨by decide +kernel, by decide +kernel⟩
  have hsucceeds : Along (Runtime.step .calm false) (SyncSucceeds .calm)
      (attempt (fun _ => none) [some plain, some sandbox] [job, app]) {} := by
    decide +kernel
  have hall := (synchronizes_iff [] rfl (by simp) ⟨rfl, rfl, rfl⟩ rfl (fun _ _ => rfl)
    hcontract hsucceeds).mp hready sandbox (by simp) ⟨app, by simp, rfl⟩
  rcases hall with hname | ⟨req, o, ho, _⟩
  · exact absurd hname (by decide +kernel)
  · exact absurd (show none = some o from ho) (by simp)

end Sample

end RuntimeEnforcer.Workloadpolicyhandler
