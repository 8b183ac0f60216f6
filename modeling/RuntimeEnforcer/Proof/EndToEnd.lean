import RuntimeEnforcer.Proof.PolicyHandler
import RuntimeEnforcer.Proof.Verdict

/-!
# From the cluster to the kernel's answer

The whole of a node in one statement: the policies of the cluster reach the resolver through the
handler, the containers through the NRI plugin, the resolver writes the maps, and the hook reads
them. Where nothing is left to do and no call to the kernel has failed, an exec in a container is
denied exactly when the policy that the container's pod names, as the cluster has it now, says so.

The conditions on the path are those under which the hook can read it and its list is consulted
(`Legible`); what happens outside them is the subject of `Proof.Bypass` and `Proof.AllowList`.
-/

set_option autoImplicit false

namespace RuntimeEnforcer

open Lib

namespace Hook

/-! ## The verdict, by the list -/

/-- The hook reads the path `P`, and looks it up in the class in which it is stored. -/
structure Legible (x : Exec) (evt : ProcessEvt) (P : Bytes) : Prop where
  reads : ReadsOk x
  evtLookup : x.probes.evtLookup = true
  version : kernelVersion 5 11 0 ≤ x.linuxKernelVersion
  path : ∃ file links fin, OnChain x file links fin ∧ Resolves x links ∧
    P = fullPath x.mem file.dentry links fin
  length : P.length ≤ 4096
  nulFree : 0 ∉ P
  padded : Padded evt P.length
  noGap : ¬ (121 ≤ P.length ∧ P.length ≤ 144)

section

variable {x : Exec} {maps : BpfMaps} {id : PolicyID} {st : PolicySettings} {evt : ProcessEvt}
  {P : Bytes} {values : List Bytes}

theorem Legible.one_le (h : Legible x evt P) : 1 ≤ P.length := by
  obtain ⟨file, links, fin, -, -, rfl⟩ := h.path
  exact one_le_length_fullPath ..

theorem lookup_eq_hookFinds {buf : Buffer} (h : Legible x evt P)
    (hbuf : P.length ≤ 8192 → buf.window (8192 - P.length) P.length = P ∧
      ∀ i, i < 8192 - P.length ∨ 8192 ≤ i → buf i = evt.path i) :
    stringMapLookup maps (stringMapIndex (stringPaddedLen (P.length % 2 ^ 16))) id buf
      (safePathAccess (u32Sub 8192 P.length)) = hookFinds maps id P := by
  have h₁ := h.one_le
  have h₂ := h.length
  have hpos : safePathAccess (u32Sub 8192 P.length) = 8192 - P.length := by
    rw [safePathAccess_eq]; unfold u32Sub; omega
  obtain ⟨hw, hf⟩ := hbuf (by omega)
  rw [Nat.mod_eq_of_lt (show P.length < 2 ^ 16 by omega), hpos]
  obtain ⟨i, hi⟩ := Option.isSome_iff_exists.mp (consulted_isSome h₁)
  have hwin : buf.window (8192 - P.length) (stringMapsSizes i)
      = (laid P).window 0 (stringMapsSizes i) := by
    rw [window_laid]
    refine (window_eq_padTo_iff hw).mpr fun j hj₁ hj₂ => ?_
    rw [hf j (.inr (by omega))]
    exact h.padded j (by omega) (by rw [← keySize_of_consulted h₁ hi]; exact hj₂)
  unfold hookFinds stringMapLookup
  rw [show outerMap (stringMapIndex (stringPaddedLen P.length)) = some i from hi]
  simp only [hwin]

theorem Legible.hookFinds_iff_mem (h : Legible x evt P) (hm : Holds maps id values)
    (hv : ∀ v ∈ values, 1 ≤ v.length ∧ v.length ≤ 4096) (hnul : ∀ v ∈ values, 0 ∉ v) :
    hookFinds maps id P = true ↔ P ∈ values := by
  rw [hookFinds_iff hm hv h.one_le h.length h.nulFree]
  constructor
  · rintro ⟨v, hvm, hstrip, -⟩
    rw [stripNul_of_nulFree (hnul v hvm)] at hstrip
    exact hstrip ▸ hvm
  · intro hP
    exact ⟨P, hP, stripNul_of_nulFree h.nulFree, aligned_self_iff.mpr h.noGap⟩

variable (hj : Judged x maps id) (h : Legible x evt P) (hst : maps.policySettings id = some st)

include hj h hst

/-- **The verdict, by what the hook finds.** -/
theorem denied_iff_not_found :
    (enforceCgroupPolicy x maps evt).ret = -eperm ↔ st.mode ≠ policyModeMonitor ∧
      if execIsForeignRoot x then st.allowForeignRoot = 0 else hookFinds maps id P ≠ true := by
  obtain ⟨file, links, fin, hx, hres, hP⟩ := h.path
  have hlen : (fullPath x.mem file.dentry links fin).length ≠ 8192 := by
    rw [← hP]
    have := h.length
    omega
  obtain ⟨buf, hbuf, hret⟩ := ret_of_resolved hj h.reads hst h.version hx hres hlen evt
  rw [← hP] at hbuf hret
  have hret : (enforceCgroupPolicy x maps evt).ret = _ := hret maps.polStrMaps
  rw [hret]
  cases hf : execIsForeignRoot x with
  | true =>
    simp only [if_true]
    split
    · next hor => exact iff_of_false (by decide) fun hd => hor.elim (fun hne => hne hd.2) hd.1
    · next hor => exact iff_of_true rfl ⟨fun hmon => hor (.inr hmon),
        Decidable.not_not.mp fun hne => hor (.inl hne)⟩
  | false =>
    have hfound : stringMapLookup (withStrings maps maps.polStrMaps)
        (stringMapIndex (stringPaddedLen (P.length % 2 ^ 16))) id buf
        (safePathAccess (u32Sub 8192 P.length)) = true ↔ hookFinds maps id P = true := by
      rw [lookup_eq_hookFinds h hbuf]
      exact Iff.rfl
    simp only [Bool.false_eq_true, if_false, hfound]
    split
    · next hor => exact iff_of_false (by decide) fun hd => hor.elim hd.2 hd.1
    · next hor => exact iff_of_true rfl ⟨fun hmon => hor (.inr hmon), fun hP => hor (.inl hP)⟩

/-- **The verdict over maps that hold a list.** -/
theorem denied_iff_of_holds (hm : Holds maps id values)
    (hv : ∀ v ∈ values, 1 ≤ v.length ∧ v.length ≤ 4096) (hnul : ∀ v ∈ values, 0 ∉ v) :
    (enforceCgroupPolicy x maps evt).ret = -eperm ↔ st.mode ≠ policyModeMonitor ∧
      if execIsForeignRoot x then st.allowForeignRoot = 0 else P ∉ values := by
  simp only [denied_iff_not_found hj h hst, ne_eq, h.hookFinds_iff_mem hm hv hnul]

theorem not_denied_of_mem (hm : Holds maps id values)
    (hv : ∀ v ∈ values, 1 ≤ v.length ∧ v.length ≤ 4096) (hP : P ∈ values)
    (hnative : execIsForeignRoot x = false) : (enforceCgroupPolicy x maps evt).ret ≠ -eperm := by
  rw [Ne, denied_iff_not_found hj h hst, hnative]
  intro hdenied
  exact hdenied.2 ((hookFinds_iff hm hv h.one_le h.length h.nulFree).mpr
    ⟨P, hP, stripNul_of_nulFree h.nulFree, aligned_self_iff.mpr h.noGap⟩)

end

end Hook

namespace Workloadpolicyhandler

open LevelTriggered Nri Hook

/-! ## A node that has settled -/

/-- The container runtime lists what runs. -/
def Truthful (m : Cluster) : ClusterStep → Prop
  | .other op => op.Truthful m.state
  | _ => True

/-- Nothing is left to do, the plugin is synchronised, and nothing went wrong on the way. -/
structure Settled (env : Env) (m : Cluster) : Prop where
  idle : m.Idle
  ready : m.state.stage = .ready
  fits : Fits env m.state.trace

/-- An exec of the path `P` by a task of the cgroup `cg` itself, not by the runtime on its
behalf. -/
structure ExecIn (maps : BpfMaps) (cg : CgroupID) (x : Exec) (evt : ProcessEvt) (P : Bytes) :
    Prop where
  legible : Legible x evt P
  tracked : getTrackerIdFromCurrTask maps x = cg
  nonzero : cg ≠ 0
  workload : execIsRuntimeBootstrap maps x cg = false

section

variable {env : Env} {failOpen : Bool} {m : Cluster}

theorem watched_step {s : ClusterStep} (h : Watched env failOpen m.state) (hs : Truthful m s) :
    Watched env failOpen (m.step env failOpen s).state := by
  rcases state_step (controller env) (Runtime.step env failOpen) s m with
    heq | ⟨req, v, heq⟩ | ⟨op, rfl, heq⟩
  · exact heq ▸ h
  · show Watched env failOpen (Machine.step (controller env) (Runtime.step env failOpen) s m).state
    rw [heq, controller_reconcile]
    cases v with
    | none => exact h.policy (step_delete (o := req)).podCache
    | some spec => exact h.policy (reconcile_podCache (spec.policy req) m.state.resolver)
  · exact h.step hs

theorem watched_cluster {steps : List ClusterStep}
    (h : Along (Cluster.step env failOpen) Truthful steps { state := {} }) :
    Watched env failOpen (run (Cluster.step env failOpen) steps { state := {} }).state :=
  run_inv (I := fun m => Watched env failOpen m.state) (fun _ _ h hs => watched_step h hs)
    (.offline rfl rfl fun _ => rfl) h

theorem settingsOf_monitor_iff {mode : Mode} {foreign : Bool} :
    (settingsOf mode foreign).mode ≠ policyModeMonitor ↔ mode = .protect := by
  cases mode with
  | monitor => exact iff_of_false (not_not_intro rfl) (by simp)
  | protect => exact iff_of_true (by show policyModeProtect ≠ policyModeMonitor; decide) rfl

theorem settingsOf_foreign_iff {mode : Mode} {foreign : Bool} :
    (settingsOf mode foreign).allowForeignRoot = 0 ↔ foreign = false := by
  cases foreign <;> simp [settingsOf]

end

/-- **A container that runs is under the rules of the cluster**: the kernel has them under one id,
to which the cgroup of the container is bound. -/
theorem governed_of_settled {env : Env} {steps : List ClusterStep} {m : Cluster}
    (hm : run (Cluster.step env false) steps { state := {} } = m)
    (hserved : Along (Cluster.step env false) Served steps { state := {} })
    (htruthful : Along (Cluster.step env false) Truthful steps { state := {} })
    (hsettled : Settled env m) {pod : PodSandbox} {c : Container}
    (hrun : (pod, c) ∈ m.state.running) {req : ObjectMeta} {o : Stored}
    (hstore : m.store req = some o)
    (hnames : (podSandboxToPodMeta pod).policyKey = req.namespacedName)
    {rules : WorkloadPolicyRules} (hrules : o.spec.rulesByContainer.lookup c.name = some rules) :
    ∃ id, m.state.resolver.world.maps.cgToPolicy.lookup c.cgroupID = some id ∧
      m.state.resolver.world.maps.policySettings id
        = some (settingsOf o.spec.mode rules.allowForeignRootExec) ∧
      Holds m.state.resolver.world.maps id rules.allowed ∧
      ∀ v ∈ rules.allowed, 1 ≤ v.length ∧ v.length ≤ 4096 := by
  have hinv : Inv (controller env) id (Traced env) (fun req v s => Knows req v (node env s)) m :=
    hm ▸ inv_run env false hserved
  have hwatched : Watched env false m.state := hm ▸ watched_cluster htruthful
  -- the handler has told the resolver the policy as it is stored
  have hknows : Knows req (some o.spec) (node env m.state) := by
    have hreq := hinv.idle hsettled.idle req
    rw [hstore] at hreq
    exact hreq
  obtain ⟨hspecs, info, hinfo, -⟩ := id hknows
  obtain ⟨_, -, hcarries⟩ := hknows.carries (sane_run env _).honest hrules
  -- the container is bound to the rules of that policy
  have hpolicy : (m.state.resolver.wpState.lookup (podSandboxToPodMeta pod).policyKey).isSome := by
    rw [hnames, ← hinv.inv.node, hinfo]
    rfl
  obtain ⟨wp, hwp, hguard⟩ := hwatched.guarded hsettled.ready hsettled.fits hrun hpolicy
  obtain rfl : o.spec.policy req = wp :=
    Option.some.inj (hspecs.symm.trans (hnames ▸ hwp))
  obtain ⟨id, hbound, hholds, hset⟩ := hguard rules hrules
  exact ⟨id, hbound, hset, hholds, fun v hv =>
    ⟨(hcarries.valid v hv).1, (hcarries.valid v hv).2.trans (maxValueLen_le _)⟩⟩

theorem ExecIn.judged {maps : BpfMaps} {cg : CgroupID} {x : Exec} {evt : ProcessEvt} {P : Bytes}
    (h : ExecIn maps cg x evt P) {id : PolicyID} (hbound : maps.cgToPolicy.lookup cg = some id) :
    Judged x maps id :=
  ⟨h.tracked ▸ h.nonzero, h.tracked ▸ hbound, h.tracked ▸ h.workload, h.legible.evtLookup⟩

/-- **The kernel answers as the cluster says.** In every run of a cluster, a container runtime and
an agent that fails closed, once the node has settled: an exec by a workload in a container that
runs is denied if and only if the policy its pod names, as it is stored in the cluster, protects,
and the file is on a foreign root without the opt-out, or is not and its path is not in the list the
policy has for the container. -/
theorem exec_denied_iff {env : Env} {steps : List ClusterStep} {m : Cluster}
    (hm : run (Cluster.step env false) steps { state := {} } = m)
    (hserved : Along (Cluster.step env false) Served steps { state := {} })
    (htruthful : Along (Cluster.step env false) Truthful steps { state := {} })
    (hsettled : Settled env m) {pod : PodSandbox} {c : Container}
    (hrun : (pod, c) ∈ m.state.running) {req : ObjectMeta} {o : Stored}
    (hstore : m.store req = some o)
    (hnames : (podSandboxToPodMeta pod).policyKey = req.namespacedName)
    {rules : WorkloadPolicyRules} (hrules : o.spec.rulesByContainer.lookup c.name = some rules)
    (hnul : ∀ v ∈ rules.allowed, 0 ∉ v) {x : Exec} {evt : ProcessEvt} {P : Bytes}
    (hexec : ExecIn m.state.resolver.world.maps c.cgroupID x evt P) :
    (enforceCgroupPolicy x m.state.resolver.world.maps evt).ret = -eperm ↔
      o.spec.mode = .protect ∧
        if execIsForeignRoot x then rules.allowForeignRootExec = false else P ∉ rules.allowed := by
  obtain ⟨id, hbound, hset, hholds, hvalid⟩ :=
    governed_of_settled hm hserved htruthful hsettled hrun hstore hnames hrules
  rw [denied_iff_of_holds (hexec.judged hbound) hexec.legible hset hholds hvalid hnul,
    settingsOf_monitor_iff, settingsOf_foreign_iff]

namespace Sample

open RuntimeEnforcer.Sample Nri.Sample

theorem settled_edited : Settled .calm (run (Cluster.step .calm false) edited { state := {} }) where
  idle := ⟨List.isEmpty_iff.mp (by decide +kernel), List.isEmpty_iff.mp (by decide +kernel),
    Option.isNone_iff_eq_none.mp (by decide +kernel)⟩
  ready := by decide +kernel
  fits := ⟨⟨by decide +kernel, by decide +kernel⟩, by decide +kernel⟩

theorem truthful_edited : Along (Cluster.step .calm false) Truthful edited { state := {} } :=
  ⟨trivial, trivial, trivial, trivial, trivial, trivial, trivial, lists_app (by simp), trivial,
    trivial, trivial, trivial, trivial, trivial, trivial⟩

theorem stored_edited : ((run (Cluster.step .calm false) edited { state := {} }).store web).map
    (fun o => (o.spec.mode, (o.spec.rulesByContainer.lookup "app").map (·.allowed)))
      = some (.protect, some ["/bin/ls".toUTF8.toList]) := by decide +kernel

theorem running_edited : (run (Cluster.step .calm false) edited { state := {} }).state.running.map
    (fun x => (x.2.name, x.2.cgroupID, (podSandboxToPodMeta x.1).policyKey))
      = [("app", 7, web.namespacedName)] := by decide +kernel

theorem legible_a : Legible (branchExec [0x61] 1 7) zeroEvt [0x2f, 0x61] where
  reads := readsOk_branchExec _ _ _
  evtLookup := rfl
  version := by decide
  path := ⟨_, _, _, onChain_branchExec (by decide) 1 7, by decide, rfl⟩
  length := by decide
  nulFree := by decide
  padded _ _ _ := rfl
  noGap := by decide

theorem execIn_a : ExecIn
    (run (Cluster.step .calm false) edited { state := {} }).state.resolver.world.maps 7
    (branchExec [0x61] 1 7) zeroEvt [0x2f, 0x61] where
  legible := legible_a
  tracked := by decide +kernel
  nonzero := by decide
  workload := by decide +kernel

/-- The container was started before the policy protected; only `/bin/ls` is allowed now. -/
theorem exec_denied_edited : (enforceCgroupPolicy (branchExec [0x61] 1 7)
    (run (Cluster.step .calm false) edited { state := {} }).state.resolver.world.maps zeroEvt).ret
      = -eperm := by
  obtain ⟨x, hx, heq⟩ := List.mem_map.mp (running_edited ▸ List.mem_singleton_self _)
  obtain ⟨hname, hrest⟩ := Prod.mk.inj heq
  obtain ⟨hcg, hkey⟩ := Prod.mk.inj hrest
  obtain ⟨o, ho, hspec⟩ := Option.map_eq_some_iff.mp stored_edited
  obtain ⟨hmode, hallowed⟩ := Prod.mk.inj hspec
  obtain ⟨rules, hrules, hlist⟩ := Option.map_eq_some_iff.mp hallowed
  refine (exec_denied_iff rfl ?_ truthful_edited settled_edited hx ho hkey (hname.symm ▸ hrules)
    (by rw [hlist]; decide +kernel) (by rw [hcg]; exact execIn_a)).mpr ⟨hmode, ?_⟩
  · exact Along.mono (fun _ _ => served_of_renumbers)
      (by decide +kernel : Along _ (fun m s => renumbers m s = true) edited _)
  · rw [execIsForeignRoot_branchExec, hlist, if_neg (by decide)]
    decide +kernel

end Sample

end Workloadpolicyhandler

end RuntimeEnforcer
