import RuntimeEnforcer.Proof.EndToEnd
import RuntimeEnforcer.Proof.Pipeline
import RuntimeEnforcer.Proof.Learning
import RuntimeEnforcer.Proof.Promotion

/-!
# From what was learned to what is allowed

The loop that the agents and the controller are for: an exec without a policy is recorded by the
hook, attributed by the scraper, written into the proposal of its workload by the learning
controller, and turned into a policy by the promotion; the policy reaches the kernel of every node
through the handler. What was learned is not denied then.

Two parts are new here. The record of an exec carries its whole path (`decode_execve`). And a path
that a proposal lists while nobody has asked for its promotion is listed in every policy that is
made of this proposal, whatever the parties do after that (`Listed`): versions of one object only
grow, and an object that is created again has another uid.
-/

set_option autoImplicit false

namespace RuntimeEnforcer

open Lib

namespace Hook

variable {x : Exec} {maps : BpfMaps} {evt : ProcessEvt} {r P : Bytes}

/-- The path of the file, as its mounts and directories give it, is `P`. -/
def PathOf (x : Exec) (P : Bytes) : Prop :=
  ∃ file links fin, OnChain x file links fin ∧ Resolves x links ∧
    P = fullPath x.mem file.dentry links fin

theorem reaches_of_execve (h : (enforceCgroupPolicy x maps evt).execve = some r)
    (hnative : execIsForeignRoot x = false) : Reaches x maps := by
  have hid := (execve_recordOf h).1
  unfold enforceCgroupPolicy at h
  simp only [hid, hnative] at h
  split at h
  · exact absurd h (by simp)
  next htracked =>
    split at h
    · exact absurd h (by simp)
    next hworkload =>
      unfold reportLearning at h
      split at h
      · exact absurd h (by simp)
      split at h
      · exact absurd h (by simp)
      next hlookup =>
        simp only [Bool.false_eq_true, if_false] at h
        rcases hpop : populateEvtWithPath x { evt with
          cgTrackerId := getTrackerIdFromCurrTask maps x, mode := 0, foreign := 0 } with
          ⟨off, evt', logs⟩
        simp only [hpop] at h
        split at h
        · exact absurd h (by simp)
        next hoff =>
          split at h
          · exact absurd h (by simp)
          next hcopy =>
            split at h
            next hout =>
              refine ⟨htracked, by simpa using hworkload, by simpa using hlookup, ?_,
                by simpa using hcopy, hout, fun _ => hnative⟩
              -- without the read of the dentry there is no offset
              by_contra hread
              unfold populateEvtWithPath at hpop
              cases hfile : x.file with
              | none =>
                simp only [hfile, Prod.mk.injEq] at hpop
                exact hoff hpop.1.symm
              | some file =>
                simp only [hfile, Bool.eq_false_iff.mpr hread, Bool.not_false, if_true,
                  Prod.mk.injEq] at hpop
                exact hoff hpop.1.symm
            next => exact absurd h (by simp)

/-- **A learning record carries the path**, up to 4094 bytes. -/
theorem decode_execve (h : (enforceCgroupPolicy x maps evt).execve = some r)
    (hnative : execIsForeignRoot x = false) (htid : getTrackerIdFromCurrTask maps x < 2 ^ 64)
    (hP : PathOf x P) (hlen : P.length ≤ 4094) :
    processRingbufEvent r = .event (expectedEvent x maps P) := by
  obtain ⟨file, links, fin, hx, hres, rfl⟩ := hP
  have hid := (execve_recordOf h).1
  have hnone : settingsFor x maps = none := by
    unfold settingsFor
    rw [hid]
    rfl
  obtain ⟨buf, hw, -, hrec⟩ :=
    record_of_resolved (reaches_of_execve h hnative) hx hres (by omega) evt
  have hsome : (enforceCgroupPolicy x maps evt).record = some r := by
    unfold Outcome.record
    rw [h]
    rfl
  rw [hsome] at hrec
  split at hrec
  · rw [Option.some.inj hrec, decode_submitted htid (fun st hst => ?_) (by omega),
      decoded_path_of_short hw hlen]
    rw [hnone] at hst
    cases hst
  · cases hrec

end Hook

namespace Api

open Eventhandler

variable {v cur : Stored WorkloadPolicyProposal} {req : KubeProcessInfo}

/-- The proposal `uid` lists the path: the stored version does, and every version that has a
promotion label. -/
structure Listed (uid : Nat) (c : ContainerName) (path : Bytes)
    (slot : Slot WorkloadPolicyProposal) : Prop where
  taken : uid < slot.next
  current : ∀ w, slot.current = some w → w.uid = uid → path ∈ (w.value.rulesOf c).allowed
  labelled : ∀ w, some w ∈ slot.history → w.uid = uid → w.value.hasPromotionLabel.isSome = true →
    path ∈ (w.value.rulesOf c).allowed

section

variable {uid : Nat} {c : ContainerName} {path : Bytes} {slot : Slot WorkloadPolicyProposal}

theorem Listed.put (h : Listed uid c path slot) {v : Option (Stored WorkloadPolicyProposal)}
    (hv : ∀ w, v = some w → w.uid = uid → path ∈ (w.value.rulesOf c).allowed) :
    Listed uid c path (slot.put v) where
  taken := Nat.lt_succ_of_lt h.taken
  current := hv
  labelled w hw huid hl := by
    rcases Slot.mem_put.mp hw with heq | hold
    · exact hv w heq.symm huid
    · exact h.labelled w hold huid hl

theorem Listed.learns (h : Listed uid c path slot) (hv : Learns slot req v) :
    Listed uid c path (slot.put (some v)) := by
  refine h.put fun w hw huid => ?_
  obtain rfl := Option.some.inj hw
  rcases hv with ⟨-, rfl⟩ | ⟨base, hbase, -, rfl⟩
  · exact absurd huid (Nat.ne_of_gt h.taken)
  · exact (grows_mutate req base.value).allowed (h.current base hbase huid)

theorem Listed.touch (h : Listed uid c path slot) (hc : slot.current = some cur)
    (huid : v.uid = cur.uid) (hrules : v.value.rulesByContainer = cur.value.rulesByContainer) :
    Listed uid c path (slot.put (some v)) := by
  refine h.put fun w hw hwuid => ?_
  obtain rfl := Option.some.inj hw
  rw [WorkloadPolicyProposal.rulesOf, hrules]
  exact h.current cur hc (huid.symm.trans hwuid)

end

namespace ProposalRun

variable {ν : Type} [DecidableEq ν] {s s' : ProposalRun ν} {op : ProposalOp ν} {uid : Nat}
  {c : ContainerName} {path : Bytes}

theorem Effect.listed (he : Effect s op s') (h : Listed uid c path s.proposal) :
    Listed uid c path s'.proposal := by
  cases he with
  | learned agent req outcome write answer hop hst v hv => exact h.learns hv
  | labelled cur v mode hop hc hv =>
    subst hv
    exact h.touch hc rfl rfl
  | deleted cur hc hop hst => exact h.put fun w hw => nomatch hw
  | marked cur now hop hc => exact h.touch hc rfl rfl
  | vanished cur hop hc => exact h.put fun w hw => nomatch hw
  | _ => exact h

theorem listed_run (hs : s.Sound) (h : Listed uid c path s.proposal) (ops : List (ProposalOp ν)) :
    Listed uid c path (run step ops s).proposal :=
  (run_inv (C := fun _ _ => True) (I := fun s : ProposalRun ν => s.Sound ∧
      Listed uid c path s.proposal)
    (fun _ op h _ => ⟨h.1.step op, (step_effect h.1 op).listed h.2⟩) ⟨hs, h⟩
    (along_of_forall fun _ _ => trivial)).2

/-- An agent has learned from the event, the proposal has no promotion label yet, and it has
room. -/
structure HasLearned (s : ProposalRun ν) (req : KubeProcessInfo)
    (cur : Stored WorkloadPolicyProposal) : Prop where
  learned : (req, Outcome.learned) ∈ s.results
  stored : s.proposal.current = some cur
  unlabelled : cur.value.hasPromotionLabel = none
  room : cur.value.isFull = false

omit [DecidableEq ν] in
theorem HasLearned.listed (hreq : s.HasLearned req cur) (h : s.Learning)
    (hf : Frozen s.proposal s.labelled) (hforeign : req.foreignRoot = false) :
    Listed cur.uid req.containerName req.executablePath s.proposal := by
  have hmem : some cur ∈ s.proposal.history := hreq.stored ▸ s.proposal.current_mem
  refine ⟨(h.sound.slot.below cur hmem).2, fun w hw _ => ?_, fun w hw huid hl => ?_⟩
  · obtain ⟨cur', hc, hhas⟩ := h.learned req hreq.learned hforeign
    obtain rfl := Option.some.inj (hreq.stored.symm.trans hc)
    obtain rfl := Option.some.inj (hreq.stored.symm.trans hw)
    refine (hhas hreq.unlabelled).resolve_right ?_
    rw [hreq.room]
    exact Bool.false_ne_true
  · -- a label is never taken off, and the stored version has none
    obtain ⟨l, hlmem, hluid, -, -⟩ := hf.recorded w hw hl
    have hlabel := (hf.kept l hlmem cur hreq.stored (huid.symm.trans hluid.symm)).1
    rw [hreq.unlabelled] at hlabel
    cases hlabel

/-- **What was learned is in the policy.** -/
theorem created_lists {key : ObjectMeta} {proposal : Option WorkloadPolicyProposal}
    {policies : GoMap String PromotedPolicy} {learning rest : List (ProposalOp ν)}
    (hstart : ∀ p, proposal = some p → p.getExecutablesLength = 0)
    (hops : ∀ op ∈ learning, OnlyLearning op ∧ ¬ Rejected op) (hforeign : req.foreignRoot = false)
    (hreq : (run step learning (ProposalRun.start key proposal policies : ProposalRun ν)).HasLearned
      req cur) {policy : PromotedPolicy} (hcreated : (v, policy) ∈ (run step (learning ++ rest)
      (ProposalRun.start key proposal policies : ProposalRun ν)).created) (huid : v.uid = cur.uid) :
    ∃ rules, policy.rulesByContainer.lookup req.containerName = some rules ∧
      req.executablePath ∈ rules.allowed := by
  have hlearning : (run step learning (ProposalRun.start key proposal policies :
      ProposalRun ν)).Learning :=
    run_inv (fun _ _ h hop => h.step hop.1 hop.2) (.start hstart) (along_of_forall hops)
  have hpromoting : ∀ ops, (run step ops (ProposalRun.start key proposal policies :
      ProposalRun ν)).Promoting := fun ops =>
    run_inv (C := fun _ _ => True) (fun _ op h _ => h.step op) (.start key proposal policies)
      (along_of_forall fun _ _ => trivial)
  have hlisted := listed_run hlearning.sound
    (hreq.listed hlearning (hpromoting learning).frozen hforeign) rest
  rw [← run_append] at hlisted
  obtain ⟨hv, hmode, hrules, -⟩ := (hpromoting (learning ++ rest)).created v policy hcreated
  have hmem := hlisted.labelled v hv huid (by rw [hmode]; rfl)
  unfold WorkloadPolicyProposal.rulesOf at hmem
  rw [hrules]
  cases hlook : v.value.rulesByContainer.lookup req.containerName with
  | none =>
    rw [hlook] at hmem
    exact absurd hmem (by simp)
  | some rules =>
    rw [hlook] at hmem
    exact ⟨rules, rfl, hmem⟩

end ProposalRun

end Api

namespace Workloadpolicyhandler

open LevelTriggered Nri Hook Eventscraper Eventhandler Api Api.ProposalRun

/-- Nothing was taken out of the list that the policy had for the container. -/
def KeepsAllowed (policy : PromotedPolicy) (spec : Spec) (name : ContainerName) : Prop :=
  ∀ rules, policy.rulesByContainer.lookup name = some rules →
    ∃ rules', spec.rulesByContainer.lookup name = some rules' ∧ rules.allowed ⊆ rules'.allowed

/-- **What was learned is not denied.** An agent hears of an exec in a container without a policy;
the event is learned while nobody has asked for the promotion of the workload's proposal and the
proposal has room; whatever else agents, users and the controller do, the proposal becomes a policy.
As long as nothing is taken out of its list, on every node that has settled an exec of the same path
in a container of that name, in a pod that names the policy, is not denied. -/
theorem learned_not_denied {ν : Type} [DecidableEq ν] {agentEnv : Env} {opts : Options}
    {agentOps : List AgentOp} (hinv : Inventory ((resolverOps agentOps).flatMap Op.reports))
    (hpods : PodsAgree (resolverOps agentOps)) {info : KubeProcessInfo}
    (hheard : info ∈ (run (Agent.step agentEnv opts) agentOps {}).scraper.enqueued)
    (hnative : info.foreignRoot = false)
    {key : ObjectMeta} {proposal : Option WorkloadPolicyProposal}
    {policies : GoMap String PromotedPolicy} {learning rest : List (ProposalOp ν)}
    (hempty : ∀ p, proposal = some p → p.getExecutablesLength = 0)
    (hops : ∀ op ∈ learning, OnlyLearning op ∧ ¬ Rejected op)
    {cur : Lib.Stored WorkloadPolicyProposal}
    (hlearned : (run ProposalRun.step learning
      (ProposalRun.start key proposal policies : ProposalRun ν)).HasLearned info cur)
    {v : Lib.Stored WorkloadPolicyProposal} {policy : PromotedPolicy}
    (hcreated : (v, policy) ∈ (run ProposalRun.step (learning ++ rest)
      (ProposalRun.start key proposal policies : ProposalRun ν)).created)
    (huid : v.uid = cur.uid)
    {env : Env} {steps : List ClusterStep} {m : Cluster}
    (hm : run (Cluster.step env false) steps { state := {} } = m)
    (hserved : Along (Cluster.step env false) Served steps { state := {} })
    (htruthful : Along (Cluster.step env false) Truthful steps { state := {} })
    (hsettled : Settled env m) {o : Stored} (hstore : m.store key = some o)
    (hkept : KeepsAllowed policy o.spec info.containerName)
    {pod : PodSandbox} {c : Container} (hrun : (pod, c) ∈ m.state.running)
    (hnames : (podSandboxToPodMeta pod).policyKey = key.namespacedName)
    (hname : c.name = info.containerName) :
    ∃ s ∈ (run (Agent.step agentEnv opts) agentOps {}).sentExecve,
      LearnedFrom (resolverOps agentOps) s info ∧
      ∀ P, PathOf s.exec P → P.length ≤ 4094 → ∀ x evt,
        ExecIn m.state.resolver.world.maps c.cgroupID x evt P → execIsForeignRoot x = false →
        (enforceCgroupPolicy x m.state.resolver.world.maps evt).ret ≠ -eperm := by
  have hpiped : Piped (resolverOps agentOps) (run (Agent.step agentEnv opts) agentOps {}) :=
    piped_run hinv hpods
  obtain ⟨s, hs, hfrom⟩ := hpiped.learned info hheard
  refine ⟨s, hs, hfrom, fun P hP hlen x evt hexec hx => ?_⟩
  obtain ⟨hgenuine, hrecord⟩ := hpiped.sentExecve s hs
  -- the event names the path
  have hpath : info.executablePath = P := by
    obtain ⟨e, he, hpath⟩ := hfrom.path
    rw [decode_execve hrecord (hfrom.foreign.symm.trans hnative) hgenuine.cgroup hP hlen] at he
    rw [← hpath, ← Decoded.event.inj he]
    rfl
  -- the policy lists it, and the kernel has the list
  obtain ⟨rules, hrules, hmem⟩ :=
    created_lists hempty hops hnative hlearned hcreated huid
  obtain ⟨rules', hrules', hsub⟩ := hkept rules hrules
  rw [← hname] at hrules'
  obtain ⟨id, hbound, hset, hholds, hvalid⟩ :=
    governed_of_settled hm hserved htruthful hsettled hrun hstore hnames hrules'
  exact not_denied_of_mem (hexec.judged hbound) hexec.legible hset hholds hvalid
    (hsub (hpath ▸ hmem)) hx

namespace Sample

open RuntimeEnforcer.Sample Nri.Sample Eventscraper.Sample ProposalRun.Sample

def unlabelled : List AgentOp :=
  [.resolver (.addPod ⟨⟨"a", ns, "a", ∅⟩,
      (∅ : GoMap _ _).insert "c1" { name := "app", cgroupID := 7 }⟩),
    .exec (branchExec [0x61] 1 7) zeroEvt (fun cg => if cg = 7 then some 7 else none) 0, .learning]

def ranA : KubeProcessInfo where
  ns := ns
  workload := "web"
  workloadKind := .deployment
  containerName := "app"
  executablePath := [0x2f, 0x61]
  podName := "a"
  containerID := "c1"

def learnsA : List (ProposalOp Unit) :=
  [.agent () (.receive ranA (.found true)), .agent () (.get (.behind 0)),
    .agent () (.listPolicies (.behind 0)), .agent () (.getAgain (.behind 0)),
    .agent () (.write .answered)]

def promotesA : List (ProposalOp Unit) :=
  [.user (.get false (.behind 0)), .user (.update .protect .answered),
    .controller (.get (.behind 0)), .controller (.hasProposalBeenPromoted (.behind 0)),
    .controller (.createPolicy .answered), .controller (.deleteProposal .answered)]

def labelledSandbox : PodSandbox :=
  { sandbox with labels := (∅ : GoMap _ _).insert policyLabelKey "deploy-web" }

/-- The policy reaches a node on which the pod, labelled for it, already runs. -/
def enforced : List ClusterStep :=
  [.change key (some ⟨⟨.protect, (∅ : GoMap _ _).insert "app" { allowed := [[0x2f, 0x61]] }⟩, 1⟩),
    .deliver, .other (.start (fun _ => none) labelledSandbox app), .take key, .finish,
    .other (.connect (fun _ => none) [some labelledSandbox] [app]), .other .syncPod,
    .other .syncPod]

theorem sent_unlabelled : ∀ s ∈ (run (Agent.step .calm opts) unlabelled {}).sentExecve,
    s.exec = branchExec [0x61] 1 7 := by
  refine run_inv (C := fun _ op => op ∈ unlabelled)
    (I := fun a : Agent => ∀ s ∈ a.sentExecve, s.exec = branchExec [0x61] 1 7) ?_ (by simp)
    (along_of_forall fun _ hop => hop)
  intro a op ha hop
  simp only [unlabelled, List.mem_cons, List.not_mem_nil, or_false] at hop
  rcases hop with rfl | rfl | rfl
  · exact ha
  · intro s hs
    rcases List.mem_append.mp hs with hold | hnew
    · exact ha s hold
    · obtain ⟨r, -, rfl⟩ := Option.map_eq_some_iff.mp (Option.mem_toList.mp hnew)
      rfl
  · have hsame : (a.step .calm opts .learning).sentExecve = a.sentExecve := by
      simp only [Agent.step, Agent.consume]
      split
      · rfl
      · split <;> rfl
    exact hsame ▸ ha

theorem hasLearned_ranA : ∃ cur, cur.uid = 1 ∧ (run ProposalRun.step learnsA
    (ProposalRun.start key none ∅)).HasLearned ranA cur := by
  have hshown : (run ProposalRun.step learnsA (ProposalRun.start key none ∅)).proposal.current.map
      (fun cur => (cur.uid, cur.value.hasPromotionLabel, cur.value.isFull))
        = some (1, none, false) := by decide +kernel
  obtain ⟨cur, hcur, hshown⟩ := Option.map_eq_some_iff.mp hshown
  obtain ⟨huid, hrest⟩ := Prod.mk.inj hshown
  obtain ⟨hlabel, hfull⟩ := Prod.mk.inj hrest
  exact ⟨cur, huid, by decide +kernel, hcur, hlabel, hfull⟩

theorem created_promotesA : ∃ v policy, (v, policy) ∈ (run ProposalRun.step (learnsA ++ promotesA)
    (ProposalRun.start key none ∅)).created ∧ v.uid = 1 ∧
      (policy.rulesByContainer.lookup "app").map (·.allowed) = some [[0x2f, 0x61]] := by
  have hshown : (run ProposalRun.step (learnsA ++ promotesA)
      (ProposalRun.start key none ∅)).created.map
        (fun e => (e.1.uid, (e.2.rulesByContainer.lookup "app").map (·.allowed)))
        = [(1, some [[0x2f, 0x61]])] := by decide +kernel
  obtain ⟨e, he, heq⟩ := List.mem_map.mp (hshown ▸ List.mem_singleton_self _)
  obtain ⟨huid, hlist⟩ := Prod.mk.inj heq
  exact ⟨e.1, e.2, he, huid, hlist⟩

theorem settled_enforced :
    Settled .calm (run (Cluster.step .calm false) enforced { state := {} }) where
  idle := ⟨List.isEmpty_iff.mp (by decide +kernel), List.isEmpty_iff.mp (by decide +kernel),
    Option.isNone_iff_eq_none.mp (by decide +kernel)⟩
  ready := by decide +kernel
  fits := ⟨⟨by decide +kernel, by decide +kernel⟩, by decide +kernel⟩

theorem lists_labelled : Nri.Lists [(labelledSandbox, app)] [some labelledSandbox] [app] where
  ids c hc c' hc' _ := (List.mem_singleton.mp hc').trans (List.mem_singleton.mp hc).symm
  pods x hx := by
    obtain rfl := List.mem_singleton.mp hx
    exact List.mem_singleton_self _
  containers x hx := by
    obtain rfl := List.mem_singleton.mp hx
    exact ⟨List.mem_singleton_self _, rfl⟩

theorem execIn_enforced : ExecIn
    (run (Cluster.step .calm false) enforced { state := {} }).state.resolver.world.maps 7
    (branchExec [0x61] 1 7) zeroEvt [0x2f, 0x61] where
  legible := legible_a
  tracked := by decide +kernel
  nonzero := by decide
  workload := by decide +kernel

/-- `/a` was learned on one node and runs on another one under the policy that was promoted. -/
theorem learned_not_denied_enforced : (enforceCgroupPolicy (branchExec [0x61] 1 7)
    (run (Cluster.step .calm false) enforced { state := {} }).state.resolver.world.maps zeroEvt).ret
      ≠ -eperm := by
  obtain ⟨cur, hcur, hlearned⟩ := hasLearned_ranA
  obtain ⟨v, policy, hcreated, huid, hlist⟩ := created_promotesA
  have hrunning : (run (Cluster.step .calm false) enforced { state := {} }).state.running.map
      (fun x => (x.2.name, x.2.cgroupID, (podSandboxToPodMeta x.1).policyKey))
        = [("app", 7, key.namespacedName)] := by decide +kernel
  obtain ⟨x, hx, heq⟩ := List.mem_map.mp (hrunning ▸ List.mem_singleton_self _)
  obtain ⟨hname, hrest⟩ := Prod.mk.inj heq
  obtain ⟨hcg, hkey⟩ := Prod.mk.inj hrest
  have hstored : ((run (Cluster.step .calm false) enforced { state := {} }).store key).map
      (fun o => (o.spec.rulesByContainer.lookup "app").map (·.allowed))
        = some (some [[0x2f, 0x61]]) := by decide +kernel
  obtain ⟨o, ho, hspec⟩ := Option.map_eq_some_iff.mp hstored
  have hkept : KeepsAllowed policy o.spec ranA.containerName := by
    intro rules hrules
    obtain ⟨rules', hrules', hlist'⟩ := Option.map_eq_some_iff.mp hspec
    refine ⟨rules', hrules', ?_⟩
    rw [show policy.rulesByContainer.lookup "app" = some rules from hrules] at hlist
    have hallowed : rules.allowed = [[0x2f, 0x61]] := Option.some.inj hlist
    rw [hallowed, hlist']
    exact List.Subset.refl _
  have hpods : PodsAgree (resolverOps unlabelled) := by
    intro a b ha hb _
    simp [resolverOps, unlabelled] at ha hb
    rw [ha, hb]
    exact ⟨rfl, rfl⟩
  have hempty : ∀ p : WorkloadPolicyProposal, none = some p → p.getExecutablesLength = 0 := by
    intro p hp
    exact absurd hp (by simp)
  have hops : ∀ op ∈ learnsA, OnlyLearning op ∧ ¬ Rejected op := by
    simp [learnsA, OnlyLearning, Rejected]
  have hserved : Along (Cluster.step .calm false) Served enforced { state := {} } :=
    Along.mono (fun _ _ => served_of_renumbers)
      (by decide +kernel : Along _ (fun m s => renumbers m s = true) enforced _)
  have htruthful : Along (Cluster.step .calm false) Truthful enforced { state := {} } :=
    ⟨trivial, trivial, trivial, trivial, trivial, lists_labelled, trivial, trivial, trivial⟩
  have hheard : ranA ∈ (run (Agent.step .calm opts) unlabelled {}).scraper.enqueued := by
    decide +kernel
  obtain ⟨s, hs, -, hall⟩ := learned_not_denied (by decide +kernel) hpods hheard rfl hempty hops
    hlearned hcreated (huid.trans hcur.symm) rfl hserved htruthful settled_enforced ho hkept hx hkey
    hname
  refine hall [0x2f, 0x61] ?_ (by decide) _ _ ?_ ?_
  · rw [sent_unlabelled s hs]
    exact legible_a.path
  · rw [hcg]
    exact execIn_enforced
  · rw [execIsForeignRoot_branchExec]
    rfl

end Sample

end Workloadpolicyhandler

end RuntimeEnforcer
