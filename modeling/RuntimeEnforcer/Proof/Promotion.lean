import RuntimeEnforcer.Proof.ProposalRuns

/-!
# Promotion keeps what was learned

From the write that sets a promotion label on, the rules of the proposal stand still: an agent that
reads the label writes nothing, and one that read the proposal before the label was there carries a
version that is no longer the stored one. `Frozen` says this of everything that is or was stored, by
uid, since a proposal that disappears may be learned anew under the same name. The controller may
read any labelled version, however old, and finds the same rules in it.
-/

set_option autoImplicit false

namespace RuntimeEnforcer.Api

open Lib Eventhandler

/-- The versions in `labelled`, in which a label was set, speak for the slot: a version with a label
has the rules and the label of one of them, and what is stored now still has the rules, and a
label. -/
structure Frozen (slot : Slot WorkloadPolicyProposal)
    (labelled : List (Stored WorkloadPolicyProposal)) : Prop where
  stored : ∀ v ∈ labelled, some v ∈ slot.history
  recorded : ∀ w, some w ∈ slot.history → w.value.hasPromotionLabel.isSome = true →
    ∃ v ∈ labelled, v.uid = w.uid ∧ v.value.rulesByContainer = w.value.rulesByContainer ∧
      v.value.hasPromotionLabel = w.value.hasPromotionLabel
  kept : ∀ v ∈ labelled, ∀ cur, slot.current = some cur → cur.uid = v.uid →
    cur.value.hasPromotionLabel.isSome = true ∧
      cur.value.rulesByContainer = v.value.rulesByContainer
  same : ∀ v ∈ labelled, ∀ w ∈ labelled, v.uid = w.uid →
    v.value.rulesByContainer = w.value.rulesByContainer

namespace Frozen

variable {slot : Slot WorkloadPolicyProposal} {labelled : List (Stored WorkloadPolicyProposal)}

theorem start (proposal : Option WorkloadPolicyProposal) :
    Frozen (Slot.start proposal) ((Slot.start proposal).current.toList.filter fun v =>
      v.value.hasPromotionLabel.isSome) := by
  have hmem : ∀ v, v ∈ ((Slot.start proposal).current.toList.filter fun v =>
      v.value.hasPromotionLabel.isSome) ↔
      (Slot.start proposal).current = some v ∧ v.value.hasPromotionLabel.isSome = true := by
    intro v
    rw [List.mem_filter, Option.mem_toList]
  have hcur : ∀ w, some w ∈ (Slot.start proposal).history →
      (Slot.start proposal).current = some w := fun w hw => (List.mem_singleton.mp hw).symm
  constructor
  · intro v hv
    exact ((hmem v).mp hv).1 ▸ Slot.current_mem _
  · intro w hw hl
    exact ⟨w, (hmem w).mpr ⟨hcur w hw, hl⟩, rfl, rfl, rfl⟩
  · intro v hv cur hc _
    obtain ⟨hv, hl⟩ := (hmem v).mp hv
    obtain rfl := Option.some.inj (hv.symm.trans hc)
    exact ⟨hl, rfl⟩
  · intro v hv w hw _
    rw [Option.some.inj (((hmem v).mp hv).1.symm.trans ((hmem w).mp hw).1)]

variable (h : Frozen slot labelled)

include h

theorem put_unlabelled {x : Option (Stored WorkloadPolicyProposal)}
    (hx : ∀ w, x = some w → w.value.hasPromotionLabel = none ∧ ∀ v ∈ labelled, v.uid ≠ w.uid) :
    Frozen (slot.put x) labelled where
  stored v hv := Slot.mem_put.mpr (.inr (h.stored v hv))
  recorded w hw hl := by
    rcases Slot.mem_put.mp hw with heq | hold
    · rw [(hx w heq.symm).1] at hl
      cases hl
    · exact h.recorded w hold hl
  kept v hv cur hc huid := absurd huid.symm ((hx cur hc).2 v hv)
  same := h.same

theorem learns (hslot : slot.Ok) {req : KubeProcessInfo} {v : Stored WorkloadPolicyProposal}
    (hv : Learns slot req v) : Frozen (slot.put (some v)) labelled := by
  refine h.put_unlabelled fun w hw => ?_
  obtain rfl := Option.some.inj hw
  refine ⟨hv.label, fun l hl huid => ?_⟩
  rcases hv with ⟨-, rfl⟩ | ⟨base, hc, hnone, rfl⟩
  · -- a new object has a new uid
    have hlt := (hslot.below l (h.stored l hl)).2
    exact absurd huid (Nat.ne_of_lt hlt)
  · -- the object it replaces has no label
    have hsome := (h.kept l hl base hc huid.symm).1
    rw [hnone] at hsome
    cases hsome

theorem relabel {cur v : Stored WorkloadPolicyProposal} (hc : slot.current = some cur)
    (huid : v.uid = cur.uid) (hrules : v.value.rulesByContainer = cur.value.rulesByContainer)
    (hl : v.value.hasPromotionLabel.isSome = true) :
    Frozen (slot.put (some v)) (v :: labelled) := by
  -- the labelled versions of the same object have its rules
  have hold : ∀ w ∈ labelled, w.uid = v.uid →
      w.value.rulesByContainer = v.value.rulesByContainer := by
    intro w hw heq
    rw [hrules]
    exact (h.kept w hw cur hc (huid.symm.trans heq.symm)).2.symm
  constructor
  · intro w hw
    rcases List.mem_cons.mp hw with rfl | hw
    · exact Slot.current_mem _
    · exact Slot.mem_put.mpr (.inr (h.stored w hw))
  · intro w hw hwl
    rcases Slot.mem_put.mp hw with heq | hw
    · obtain rfl := Option.some.inj heq
      exact ⟨w, List.mem_cons_self, rfl, rfl, rfl⟩
    · obtain ⟨l, hmem, hl⟩ := h.recorded w hw hwl
      exact ⟨l, List.mem_cons_of_mem _ hmem, hl⟩
  · intro w hw c hcur huid'
    obtain rfl := Option.some.inj hcur
    rcases List.mem_cons.mp hw with rfl | hw
    · exact ⟨hl, rfl⟩
    · exact ⟨hl, (hold w hw huid'.symm).symm⟩
  · intro a ha b hb heq
    rcases List.mem_cons.mp ha with rfl | ha' <;> rcases List.mem_cons.mp hb with rfl | hb'
    · rfl
    · exact (hold b hb' heq.symm).symm
    · exact hold a ha' heq
    · exact h.same a ha' b hb' heq

theorem touch {cur v : Stored WorkloadPolicyProposal} (hc : slot.current = some cur)
    (huid : v.uid = cur.uid) (hrules : v.value.rulesByContainer = cur.value.rulesByContainer)
    (hl : v.value.hasPromotionLabel = cur.value.hasPromotionLabel) :
    Frozen (slot.put (some v)) labelled where
  stored w hw := Slot.mem_put.mpr (.inr (h.stored w hw))
  recorded w hw hwl := by
    rcases Slot.mem_put.mp hw with heq | hw
    · obtain rfl := Option.some.inj heq
      rw [huid, hrules, hl]
      exact h.recorded cur (hc ▸ slot.current_mem) (hl ▸ hwl)
    · exact h.recorded w hw hwl
  kept w hw c hcur huid' := by
    obtain rfl := Option.some.inj hcur
    rw [hl, hrules]
    exact h.kept w hw cur hc (huid.symm.trans huid')
  same := h.same

end Frozen

namespace ProposalRun

variable {ν : Type} [DecidableEq ν] {s s' : ProposalRun ν} {op : ProposalOp ν}

theorem Effect.frozen (he : Effect s op s') (h : s.Sound) (hf : Frozen s.proposal s.labelled) :
    Frozen s'.proposal s'.labelled := by
  have hremoved : Frozen (s.proposal.put none) s.labelled :=
    hf.put_unlabelled fun w hw => nomatch hw
  cases he with
  | learned agent req outcome write answer hop hst v hv => exact hf.learns h.slot hv
  | labelled cur v mode hop hc hv =>
    subst hv
    exact hf.relabel hc rfl rfl (by simp)
  | deleted cur hc hop hst => exact hremoved
  | marked cur now hop hc =>
    exact hf.touch hc rfl rfl (WorkloadPolicyProposal.hasPromotionLabel_congr rfl)
  | vanished cur hop hc => exact hremoved
  | _ => exact hf

theorem Effect.created (he : Effect s op s') {v : Stored WorkloadPolicyProposal}
    {policy : PromotedPolicy} (hmem : (v, policy) ∈ s'.created) :
    (v, policy) ∈ s.created ∨
      s.controller = .creating v policy ∧ s'.policies.lookup policy.name = some policy := by
  cases he with
  | promoted v' policy' policies stage hst hpol hstage =>
    rcases List.mem_cons.mp hmem with heq | hold
    · obtain ⟨rfl, rfl⟩ := Prod.mk.inj heq
      exact .inr ⟨hst, (createPolicyIn_eq_ok hpol).2⟩
    · exact .inl hold
  | _ => exact .inl hmem

/-- The policy was made from a labelled version of the proposal, and is there. -/
structure MadeFrom (s : ProposalRun ν) (v : Stored WorkloadPolicyProposal)
    (policy : PromotedPolicy) : Prop where
  stored : some v ∈ s.proposal.history
  mode : v.value.hasPromotionLabel = some policy.mode
  rules : policy.rulesByContainer = v.value.rulesByContainer
  there : s.policies.lookup s.key.name = some policy

/-- **The invariant.** -/
structure Promoting (s : ProposalRun ν) : Prop where
  sound : s.Sound
  frozen : Frozen s.proposal s.labelled
  created : ∀ v policy, (v, policy) ∈ s.created → MadeFrom s v policy

omit [DecidableEq ν] in
theorem Promoting.start (key : ObjectMeta) (proposal : Option WorkloadPolicyProposal)
    (policies : GoMap String PromotedPolicy) :
    (ProposalRun.start key proposal policies : ProposalRun ν).Promoting :=
  ⟨Sound.start key proposal policies, Frozen.start proposal, fun _ _ h => nomatch h⟩

theorem Promoting.step (h : s.Promoting) (op : ProposalOp ν) : (s.step op).Promoting := by
  have he := step_effect h.sound op
  refine ⟨he.sound h.sound, he.frozen h.sound h.frozen, fun v policy hmem => ?_⟩
  rcases he.created hmem with hold | ⟨hst, hthere⟩
  · obtain ⟨hv, hmode, hrules, hthere⟩ := h.created v policy hold
    exact ⟨he.change.mem hv, hmode, hrules, he.key ▸ he.policiesKept _ _ hthere⟩
  · have hcreating : (PromoteStage.creating v policy).Ok s := hst ▸ h.sound.controller
    obtain ⟨hv, hmode, hrules, hmeta, -⟩ := hcreating
    have hname : policy.name = (s.step op).key.name := by rw [he.key, hmeta]
    exact ⟨he.change.mem hv, hmode, hrules, hname ▸ hthere⟩

/-! ## What the parties see -/

/-- While the stored proposal has a label, learning leaves it alone, and whatever replaces it has
the same rules and a label. -/
def LabelFreezes (s : ProposalRun ν) (op : ProposalOp ν) : Prop :=
  ∀ v, s.proposal.current = some v → v.value.hasPromotionLabel.isSome = true →
    (∀ agent learnOp, op = .agent agent learnOp → (s.step op).proposal = s.proposal) ∧
      ∀ w, (s.step op).proposal.current = some w → w.uid = v.uid ∧
        w.value.rulesByContainer = v.value.rulesByContainer ∧
        w.value.hasPromotionLabel.isSome = true

/-- The controller deletes the proposal only when a policy that was promoted from it exists. -/
def DeletesPromoted (s : ProposalRun ν) (op : ProposalOp ν) : Prop :=
  ∀ promoteOp, op = .controller promoteOp → s.proposal.current.isSome = true →
    (s.step op).proposal.current = none →
      ∃ name policy, s.policies.lookup name = some policy ∧
        policy.labels.lookup policyPromotedFromLabelKey = some s.key.name

theorem Effect.labelled_cases (he : Effect s op s') {v : Stored WorkloadPolicyProposal}
    (hv : s.proposal.current = some v) (hl : v.value.hasPromotionLabel.isSome = true) :
    s'.proposal = s.proposal ∨ (∀ agent learnOp, op ≠ .agent agent learnOp) ∧
      ∀ w, s'.proposal.current = some w → w.uid = v.uid ∧
        w.value.rulesByContainer = v.value.rulesByContainer ∧
        w.value.hasPromotionLabel.isSome = true := by
  cases he with
  | learned agent req outcome write answer hop hst x hx =>
    rcases hx with ⟨hc, -⟩ | ⟨base, hc, hnone, -⟩
    · cases hc.symm.trans hv
    · obtain rfl := Option.some.inj (hc.symm.trans hv)
      rw [hnone] at hl
      cases hl
  | labelled cur x mode hop hc hx =>
    obtain ⟨answer, rfl⟩ := hop
    obtain rfl := Option.some.inj (hc.symm.trans hv)
    refine .inr ⟨fun _ _ => by simp, fun w hw => ?_⟩
    obtain rfl := Option.some.inj hw
    subst hx
    exact ⟨rfl, rfl, by simp⟩
  | deleted cur hc hop hst =>
    obtain ⟨answer, rfl⟩ := hop
    exact .inr ⟨fun _ _ => by simp, fun w hw => nomatch hw⟩
  | marked cur now hop hc =>
    subst hop
    obtain rfl := Option.some.inj (hc.symm.trans hv)
    refine .inr ⟨fun _ _ => by simp, fun w hw => ?_⟩
    obtain rfl := Option.some.inj hw
    exact ⟨rfl, rfl, hl⟩
  | vanished cur hop hc =>
    subst hop
    exact .inr ⟨fun _ _ => by simp, fun w hw => nomatch hw⟩
  | _ => exact .inl rfl

theorem Sound.labelFreezes (h : s.Sound) (op : ProposalOp ν) : LabelFreezes s op := by
  intro v hv hl
  rcases (step_effect h op).labelled_cases hv hl with heq | ⟨hop, hnext⟩
  · refine ⟨fun _ _ _ => heq, fun w hw => ?_⟩
    rw [heq, hv] at hw
    obtain rfl := Option.some.inj hw
    exact ⟨rfl, rfl, hl⟩
  · exact ⟨fun agent learnOp heq => absurd heq (hop agent learnOp), hnext⟩

theorem Effect.deleting (he : Effect s op s') {promoteOp : PromoteOp}
    (hop : op = .controller promoteOp) (hsome : s.proposal.current.isSome = true)
    (hnone : s'.proposal.current = none) : s.controller = .deleting := by
  have hsame : s'.proposal ≠ s.proposal := by
    intro heq
    rw [← heq, hnone] at hsome
    cases hsome
  cases he with
  | learned _ _ _ _ _ _ _ _ _ => cases hnone
  | labelled _ _ _ _ _ _ => cases hnone
  | deleted _ _ _ hst => exact hst
  | marked _ _ _ _ => cases hnone
  | vanished _ hop' _ => cases hop.symm.trans hop'
  | _ => exact absurd rfl hsame

theorem Sound.deletesPromoted (h : s.Sound) (op : ProposalOp ν) : DeletesPromoted s op := by
  intro promoteOp hop hsome hnone
  have hst := (step_effect h op).deleting hop hsome hnone
  have hdeleting : PromoteStage.deleting.Ok s := hst ▸ h.controller
  exact hasProposalBeenPromoted_iff.mp hdeleting

/-- **Promotion keeps what was learned.** -/
theorem promotion_sound (key : ObjectMeta) (proposal : Option WorkloadPolicyProposal)
    (policies : GoMap String PromotedPolicy) (ops : List (ProposalOp ν)) :
    let s₀ : ProposalRun ν := ProposalRun.start key proposal policies
    let s := run step ops s₀
    Along step LabelFreezes ops s₀ ∧ Along step DeletesPromoted ops s₀ ∧
      ∀ v policy, (v, policy) ∈ s.created →
        s.policies.lookup s.key.name = some policy ∧
        ∃ l ∈ s.labelled, l.uid = v.uid ∧
          policy.rulesByContainer = l.value.rulesByContainer ∧
          l.value.hasPromotionLabel = some policy.mode ∧
          ∀ l' ∈ s.labelled, l'.uid = v.uid →
            l'.value.rulesByContainer = policy.rulesByContainer := by
  intro s₀ s
  have hkeep : ∀ (s : ProposalRun ν) op, s.Promoting → True → (s.step op).Promoting :=
    fun s op h _ => h.step op
  have halong : Along step (fun _ _ => True) ops s₀ := along_of_forall fun _ _ => trivial
  have hstart : s₀.Promoting := .start key proposal policies
  refine ⟨along_of_inv hkeep (fun s op h _ => h.sound.labelFreezes op) hstart halong,
    along_of_inv hkeep (fun s op h _ => h.sound.deletesPromoted op) hstart halong, ?_⟩
  intro v policy hmem
  have hend : s.Promoting := run_inv hkeep hstart halong
  obtain ⟨hv, hmode, hrules, hthere⟩ := hend.created v policy hmem
  obtain ⟨l, hl, huid, hlrules, hlmode⟩ := hend.frozen.recorded v hv (by rw [hmode]; rfl)
  refine ⟨hthere, l, hl, huid, hrules.trans hlrules.symm, hlmode.trans hmode, ?_⟩
  intro l' hl' huid'
  rw [hrules, ← hlrules]
  exact hend.frozen.same l' hl' l hl (huid'.trans huid.symm)

namespace Sample

/-- The first agent has learned a path and the second is about to write another one when the user
sets the label; the controller then promotes. -/
def promotion : List (ProposalOp Bool) :=
  [.agent false (.receive (exec [1]) (.found true)), .agent false (.get (.behind 0)),
    .agent false (.listPolicies (.behind 0)), .agent false (.getAgain (.behind 0)),
    .agent false (.write .answered),
    .agent true (.receive (exec [2]) (.found true)), .agent true (.get (.behind 0)),
    .agent true (.getAgain (.behind 0)),
    .user (.get false (.behind 0)), .user (.update .protect .answered),
    .agent true (.write .answered),
    .controller (.get (.behind 0)), .controller (.hasProposalBeenPromoted (.behind 0)),
    .controller (.createPolicy .answered), .controller (.deleteProposal .answered)]

/-- The second path is refused with a conflict and is not in the policy. -/
example :
    let s := run step promotion (ProposalRun.start key none ∅)
    s.results.map Prod.snd = [.requeued, .learned] ∧ s.proposal.current.isNone = true ∧
      s.created.map (fun e => (e.2.mode, (e.2.rulesByContainer.lookup "nginx").map
        WorkloadPolicyRules.allowed)) = [(.protect, some [[1]])] := by
  decide +kernel

end Sample

end ProposalRun

end RuntimeEnforcer.Api
