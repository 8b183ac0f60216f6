import RuntimeEnforcer.Controller.ProposalRun

/-!
# What a step can do to a proposal

Each step has one of twelve effects. A write of an agent is only ever the mutation of what is stored
(`Learns`): the version it carries makes the copy that was mutated the stored object itself, and a
proposal with a promotion label is never written by an agent, because its mutation is the identity.
`Sound` is the invariant this rests on; the results about learning and promotion are case analyses
over `Effect`.
-/

set_option autoImplicit false

namespace RuntimeEnforcer.Eventhandler

open Lib Api

variable {w : Write} {slot : Slot WorkloadPolicyProposal} {v : Stored WorkloadPolicyProposal}

variable {history : List (Option (Stored WorkloadPolicyProposal))} {req : KubeProcessInfo}

theorem gate_ne_learned {ns : NamespaceRead} {outcome : Outcome}
    (h : gate req ns = .inl outcome) : outcome ≠ .learned := by
  rintro rfl
  unfold gate at h
  repeat' split at h
  all_goals cases h

theorem mutate_of_label {p : WorkloadPolicyProposal} (h : p.hasPromotionLabel.isSome = true) :
    mutate req p = p := by
  rw [mutate, if_pos h]

theorem labels_enrichOwnerRef (p : WorkloadPolicyProposal) :
    (enrichOwnerRef req p).labels = p.labels := by
  unfold enrichOwnerRef
  split <;> rfl

theorem rules_enrichOwnerRef (p : WorkloadPolicyProposal) :
    (enrichOwnerRef req p).rulesByContainer = p.rulesByContainer := by
  unfold enrichOwnerRef
  split <;> rfl

theorem hasPromotionLabel_mutate (req : KubeProcessInfo) (p : WorkloadPolicyProposal) :
    (mutate req p).hasPromotionLabel = p.hasPromotionLabel := by
  refine WorkloadPolicyProposal.hasPromotionLabel_congr ?_
  unfold mutate
  split
  · rfl
  split
  · rw [labels_enrichOwnerRef, WorkloadPolicyProposal.labels_setAllowForeignRootExec]
  split
  · rfl
  · rw [labels_enrichOwnerRef, WorkloadPolicyProposal.labels_addProcess]

/-- A write that an agent has decided on: a new proposal, or the mutation of an unlabelled one that
is or was stored. An object with a version is not created, so nothing is said of it. -/
def Write.Ok (history : List (Option (Stored WorkloadPolicyProposal))) (req : KubeProcessInfo) :
    Write → Prop
  | .keep => False
  | .create carried obj => carried = none → obj = mutate req {}
  | .update existing obj =>
    some existing ∈ history ∧ existing.value.hasPromotionLabel = none ∧
      obj = mutate req existing.value

/-- Somewhere in the history the event changes nothing. -/
def UpToDate (history : List (Option (Stored WorkloadPolicyProposal))) (req : KubeProcessInfo) :
    Prop :=
  ∃ base, some base ∈ history ∧ base.value.deepEqual (mutate req base.value) = true

theorem createOrUpdate_keep {seen found : Option (Stored WorkloadPolicyProposal)}
    (hfound : found ∈ history) (h : createOrUpdate req seen found = .keep) :
    UpToDate history req := by
  cases found with
  | none => cases h
  | some base =>
    by_cases heq : base.value.deepEqual (mutate req base.value) = true
    · exact ⟨base, hfound, heq⟩
    · simp [createOrUpdate, heq] at h

theorem createOrUpdate_ok {seen found : Option (Stored WorkloadPolicyProposal)}
    (hfound : found ∈ history) (h : createOrUpdate req seen found ≠ .keep) :
    (createOrUpdate req seen found).Ok history req := by
  cases found with
  | none =>
    cases seen with
    | none => exact fun _ => rfl
    | some v => exact fun hcarried => nomatch hcarried
  | some base =>
    by_cases heq : base.value.deepEqual (mutate req base.value) = true
    · simp [createOrUpdate, heq] at h
    · have hlabel : base.value.hasPromotionLabel = none := by
        by_contra hl
        rw [mutate_of_label (Option.isSome_iff_ne_none.mpr hl)] at heq
        exact heq base.value.deepEqual_self
      simp only [createOrUpdate, heq, Bool.false_eq_true, if_false]
      exact ⟨hfound, hlabel, rfl⟩

theorem Write.Ok.mono {history' : List (Option (Stored WorkloadPolicyProposal))}
    (h : ∀ v, some v ∈ history → some v ∈ history') (hw : w.Ok history req) :
    w.Ok history' req := by
  cases w with
  | keep => exact hw
  | create carried obj => exact hw
  | update existing obj => exact ⟨h existing hw.1, hw.2⟩

/-- What an agent's write leaves: the mutation of what is stored, which has no label. -/
def Learns (slot : Slot WorkloadPolicyProposal) (req : KubeProcessInfo)
    (v : Stored WorkloadPolicyProposal) : Prop :=
  (slot.current = none ∧ v = ⟨slot.next, slot.next, mutate req {}⟩) ∨
    ∃ base, slot.current = some base ∧ base.value.hasPromotionLabel = none ∧
      v = ⟨slot.next, base.uid, mutate req base.value⟩

theorem Write.Ok.learns {slot' : Slot WorkloadPolicyProposal} (hw : w.Ok slot.history req)
    (hslot : slot.Ok) (h : w.carryOut slot = .ok slot') :
    ∃ v, Learns slot req v ∧ slot' = slot.put (some v) := by
  cases w with
  | keep => exact hw.elim
  | create carried obj =>
    obtain ⟨hcarried, hc, rfl⟩ := Slot.create_eq_ok h
    exact ⟨_, .inl ⟨hc, by rw [hw hcarried]⟩, rfl⟩
  | update existing obj =>
    obtain ⟨cur, hc, hver, rfl⟩ := Slot.update_eq_ok h
    obtain ⟨hmem, hlabel, rfl⟩ := hw
    -- the version is still the stored one, so the copy is what is stored
    obtain rfl := hslot.eq_current hmem hc hver
    exact ⟨_, .inr ⟨cur, hc, hlabel, rfl⟩, rfl⟩

/-- A write without effect that counts as success is one that was rejected for good: the store's
own status, for an object that carries a version, is another. -/
theorem Write.refused {answer : Answer} {code : Nat} (hcode : code = 422 ∨ code = 410)
    (h : (attempt answer w.carryOut slot).error = some (.status code)) :
    answer = .refused code := by
  rcases attempt_status h with hans | hstore
  · exact hans
  · cases w with
    | keep => cases hstore
    | create carried obj =>
      have := Slot.create_status hstore
      omega
    | update existing obj => exact absurd hstore Slot.update_ne_status

theorem Learns.change (h : Learns slot req v) : Slot.Change slot (slot.put (some v)) := by
  rcases h with ⟨hc, rfl⟩ | ⟨base, hc, -, rfl⟩
  · exact .create hc _
  · exact .update hc _

/-- What an agent's write mutates: the stored proposal, or an empty one. -/
def storedValue (slot : Slot WorkloadPolicyProposal) : WorkloadPolicyProposal :=
  (slot.current.map Stored.value).getD {}

theorem Learns.value (h : Learns slot req v) : v.value = mutate req (storedValue slot) := by
  rcases h with ⟨hc, rfl⟩ | ⟨base, hc, -, rfl⟩ <;> simp [storedValue, hc]

theorem Learns.label (h : Learns slot req v) : v.value.hasPromotionLabel = none := by
  rcases h with ⟨-, rfl⟩ | ⟨base, -, hl, rfl⟩
  · exact hasPromotionLabel_mutate req {}
  · exact (hasPromotionLabel_mutate req base.value).trans hl

end RuntimeEnforcer.Eventhandler

namespace RuntimeEnforcer.Api

open Lib Eventhandler

variable {ν : Type}

/-- The write an agent is about to make is one it may make. -/
def LearnStage.Ok (history : List (Option (Stored WorkloadPolicyProposal))) : LearnStage → Prop
  | .writing req write => write.Ok history req
  | _ => True

/-- What the controller has read, it has read from the store; and it only deletes where a policy
is. -/
def PromoteStage.Ok (s : ProposalRun ν) : PromoteStage → Prop
  | .idle => True
  | .got v => some v ∈ s.proposal.history
  | .creating v policy =>
    some v ∈ s.proposal.history ∧ v.value.hasPromotionLabel = some policy.mode ∧
      policy.rulesByContainer = v.value.rulesByContainer ∧ policy.toObjectMeta = s.key ∧
      policy.labels.lookup policyPromotedFromLabelKey = some s.key.name
  | .deleting => hasProposalBeenPromoted s.policies s.key.name = true

/-- `policies` has every policy of `older`. -/
def PoliciesKept (older policies : GoMap String PromotedPolicy) : Prop :=
  ∀ name wp, older.lookup name = some wp → policies.lookup name = some wp

theorem PoliciesKept.promoted {older policies : GoMap String PromotedPolicy}
    (h : PoliciesKept older policies) {proposalName : String}
    (hp : hasProposalBeenPromoted older proposalName = true) :
    hasProposalBeenPromoted policies proposalName = true := by
  obtain ⟨name, wp, hlook, hlabel⟩ := hasProposalBeenPromoted_iff.mp hp
  exact hasProposalBeenPromoted_iff.mpr ⟨name, wp, h name wp hlook, hlabel⟩

theorem LearnStage.Ok.mono {stage : LearnStage}
    {history history' : List (Option (Stored WorkloadPolicyProposal))}
    (hsub : ∀ v, some v ∈ history → some v ∈ history') (hst : stage.Ok history) :
    stage.Ok history' := by
  cases stage with
  | writing req write => exact Write.Ok.mono hsub hst
  | _ => trivial

theorem PromoteStage.Ok.mono {s s' : ProposalRun ν} {stage : PromoteStage} (hst : stage.Ok s)
    (hch : s.proposal.Change s'.proposal) (hkey : s'.key = s.key)
    (hkept : PoliciesKept s.policies s'.policies) : stage.Ok s' := by
  cases stage with
  | idle => trivial
  | got v => exact hch.mem hst
  | creating v policy =>
    exact ⟨hch.mem hst.1, hst.2.1, hst.2.2.1, hkey ▸ hst.2.2.2.1, hkey ▸ hst.2.2.2.2⟩
  | deleting =>
    have hprom : hasProposalBeenPromoted s.policies s.key.name = true := hst
    show hasProposalBeenPromoted s'.policies s'.key.name = true
    rw [hkey]
    exact hkept.promoted hprom

theorem createPolicyIn_eq_ok {policy : PromotedPolicy} {policies policies' :
    GoMap String PromotedPolicy} (h : createPolicyIn policy policies = .ok policies') :
    PoliciesKept policies policies' ∧ policies'.lookup policy.name = some policy := by
  unfold createPolicyIn at h
  split at h
  · cases h
  next habs =>
    obtain rfl := Except.ok.inj h
    refine ⟨fun name wp hlook => ?_, by simp⟩
    have hne : name ≠ policy.name := by
      rintro rfl
      rw [habs] at hlook
      cases hlook
    rw [GoMap.lookup_insert_eq, if_neg hne, hlook]

theorem setPromotedLabel_eq_ok {wp policy : PromotedPolicy} {proposalName : String}
    (h : wp.setPromotedLabel proposalName = .ok policy) :
    policy = { wp with labels := wp.labels.insert policyPromotedFromLabelKey proposalName } := by
  unfold PromotedPolicy.setPromotedLabel at h
  split at h
  · cases h
  · exact (Except.ok.inj h).symm

namespace ProposalRun

/-- **The invariant of the parties.** -/
structure Sound (s : ProposalRun ν) : Prop where
  slot : s.proposal.Ok
  agents : ∀ agent, (s.agents agent).Ok s.proposal.history
  user : ∀ v, s.user = some v → some v ∈ s.proposal.history
  controller : s.controller.Ok s
  policies : ∀ older ∈ s.olderPolicies, PoliciesKept older s.policies

theorem Sound.readPolicies {s : ProposalRun ν} (h : s.Sound) (n : Nat) :
    PoliciesKept (s.readPolicies n) s.policies := by
  have hmem : s.readPolicies n ∈ s.policies :: s.olderPolicies := by
    rw [ProposalRun.readPolicies, List.getD_eq_getElem?_getD]
    cases hget : (s.policies :: s.olderPolicies)[n]? with
    | none => simp
    | some m => exact List.mem_of_getElem? hget
  rcases List.mem_cons.mp hmem with heq | hold
  · exact fun name wp hlook => heq ▸ hlook
  · exact h.policies _ hold

theorem Sound.start (key : ObjectMeta) (proposal : Option WorkloadPolicyProposal)
    (policies : GoMap String PromotedPolicy) :
    (ProposalRun.start key proposal policies : ProposalRun ν).Sound where
  slot := Slot.Ok.start proposal
  agents _ := trivial
  user _ h := nomatch h
  controller := trivial
  policies _ h := nomatch h

variable [DecidableEq ν]

/-- The step is a write that the webhook rejects for good. -/
def Rejected (op : ProposalOp ν) : Prop :=
  ∃ agent code, op = .agent agent (.write (.refused code)) ∧ (code = 422 ∨ code = 410)

/-- **What a step can do.** -/
inductive Effect (s : ProposalRun ν) (op : ProposalOp ν) : ProposalRun ν → Prop
  | nothing : Effect s op s
  | moved (agent : ν) (stage : LearnStage) (hst : stage.Ok s.proposal.history) :
    Effect s op (s.move agent stage)
  | finished (agent : ν) (req : KubeProcessInfo) (outcome : Outcome)
    (hout : outcome = .learned → UpToDate s.proposal.history req ∨ Rejected op) :
    Effect s op (s.finish agent req outcome)
  | learned (agent : ν) (req : KubeProcessInfo) (outcome : Outcome) (write : Write)
    (answer : Answer) (hop : op = .agent agent (.write answer))
    (hst : s.agents agent = .writing req write) (v : Stored WorkloadPolicyProposal)
    (hv : Learns s.proposal req v) :
    Effect s op ({ s with proposal := s.proposal.put (some v) }.finish agent req outcome)
  | looked (user : Option (Stored WorkloadPolicyProposal))
    (huser : ∀ v, user = some v → some v ∈ s.proposal.history) : Effect s op { s with user }
  | labelled (cur v : Stored WorkloadPolicyProposal) (mode : Mode)
    (hop : ∃ answer, op = .user (.update mode answer)) (hc : s.proposal.current = some cur)
    (hv : v = ⟨s.proposal.next, cur.uid, cur.value.setPromotionLabel mode⟩) :
    Effect s op { s with user := none, proposal := s.proposal.put (some v),
                         labelled := v :: s.labelled }
  | controlled (stage : PromoteStage) (hst : stage.Ok s) :
    Effect s op { s with controller := stage }
  | promoted (v : Stored WorkloadPolicyProposal) (policy : PromotedPolicy)
    (policies : GoMap String PromotedPolicy) (stage : PromoteStage)
    (hst : s.controller = .creating v policy)
    (hpol : createPolicyIn policy s.policies = .ok policies)
    (hstage : stage = .deleting ∨ stage = .idle) :
    Effect s op { s.putPolicies policies with created := (v, policy) :: s.created,
                                              controller := stage }
  | policyAdded (policies : GoMap String PromotedPolicy)
    (hkept : PoliciesKept s.policies policies) :
    Effect s op (s.putPolicies policies)
  | deleted (cur : Stored WorkloadPolicyProposal) (hc : s.proposal.current = some cur)
    (hop : ∃ answer, op = .controller (.deleteProposal answer)) (hst : s.controller = .deleting) :
    Effect s op { s with controller := .idle, proposal := s.proposal.put none }
  | marked (cur : Stored WorkloadPolicyProposal) (now : Time) (hop : op = .markDeleted now)
    (hc : s.proposal.current = some cur) :
    Effect s op { s with
      proposal := s.proposal.put
        (some ⟨s.proposal.next, cur.uid, { cur.value with deletionTimestamp := some now }⟩) }
  | vanished (cur : Stored WorkloadPolicyProposal) (hop : op = .vanish)
    (hc : s.proposal.current = some cur) : Effect s op { s with proposal := s.proposal.put none }

section Steps

variable {s : ProposalRun ν} (h : s.Sound)
include h

theorem effect_agent (agent : ν) (op : LearnOp) :
    Effect s (.agent agent op) (s.stepAgent agent op) := by
  -- an outcome other than `learned` needs no justification
  have hfin : ∀ req outcome, outcome ≠ Outcome.learned →
      Effect s (.agent agent op) (s.finish agent req outcome) :=
    fun req outcome hne => .finished agent req outcome fun heq => absurd heq hne
  cases op with
  | receive req ns =>
    simp only [stepAgent]
    split
    next outcome _ hgate => exact hfin req outcome (gate_ne_learned hgate)
    · split
      · exact .moved agent _ trivial
      · exact .nothing
    · exact .nothing
  | get read =>
    simp only [stepAgent]
    split
    · exact hfin _ _ (by decide)
    · split <;> exact .moved agent _ trivial
    · exact .nothing
  | listPolicies read =>
    simp only [stepAgent]
    split
    · exact hfin _ _ (by decide)
    · split
      · exact hfin _ _ (by decide)
      · exact .moved agent _ trivial
    · exact .nothing
  | getAgain read =>
    simp only [stepAgent]
    split
    · exact hfin _ _ (by decide)
    next req seen n _ =>
      have hmem := s.proposal.read_mem n
      split
      next hkeep =>
        exact .finished agent req .learned fun _ => .inl (createOrUpdate_keep hmem hkeep)
      next hwrite => exact .moved agent _ (createOrUpdate_ok hmem hwrite)
    · exact .nothing
  | write answer =>
    simp only [stepAgent]
    split
    next req write hst =>
      have hw : (LearnStage.writing req write).Ok s.proposal.history := hst ▸ h.agents agent
      have hw : write.Ok s.proposal.history req := hw
      rcases attempt_cases answer write.carryOut s.proposal with ⟨slot, e, hok, heq⟩ | ⟨e, heq⟩
      · obtain ⟨v, hv, rfl⟩ := hw.learns h.slot hok
        rw [heq]
        exact .learned agent req _ write answer rfl hst v hv
      · rw [heq]
        refine .finished agent req _ fun hout => .inr ?_
        obtain ⟨code, hcode, rfl⟩ : ∃ code, (code = 422 ∨ code = 410) ∧ e = .status code := by
          rcases settle_learned hout with herr | herr | herr
          · cases herr
          · exact ⟨422, .inl rfl, Option.some.inj herr⟩
          · exact ⟨410, .inr rfl, Option.some.inj herr⟩
        have hans : answer = .refused code := Write.refused hcode (by rw [heq])
        exact ⟨agent, code, by rw [hans], hcode⟩
    · exact .nothing

theorem effect_user (op : LabelOp) : Effect s (.user op) (s.stepUser op) := by
  cases op with
  | get overwrite read =>
    cases read with
    | failed => exact .looked none fun v hv => nomatch hv
    | behind n =>
      simp only [stepUser]
      split
      · exact .looked none fun v hv => nomatch hv
      next v hread =>
        split
        · exact .looked none fun v hv => nomatch hv
        · refine .looked (some v) fun w hw => ?_
          obtain rfl := Option.some.inj hw
          exact hread ▸ s.proposal.read_mem n
  | update mode answer =>
    simp only [stepUser]
    split
    · exact .nothing
    next v huser =>
      rcases attempt_cases answer (Slot.update v.version (v.value.setPromotionLabel mode))
        s.proposal with ⟨slot, e, hok, heq⟩ | ⟨e, heq⟩
      · obtain ⟨cur, hc, hver, rfl⟩ := Slot.update_eq_ok hok
        obtain rfl := h.slot.eq_current (h.user v huser) hc hver
        rw [heq]
        exact .labelled cur _ mode ⟨answer, rfl⟩ hc rfl
      · rw [heq]
        exact .looked none fun v hv => nomatch hv

theorem effect_controller (op : PromoteOp) :
    Effect s (.controller op) (s.stepController op) := by
  cases op with
  | get read =>
    simp only [stepController]
    split
    next n _ =>
      split
      · exact .nothing
      next v hread =>
        split
        · exact .nothing
        · have hv : some v ∈ s.proposal.history := hread ▸ s.proposal.read_mem n
          exact .controlled (.got v) hv
    · exact .nothing
  | hasProposalBeenPromoted read =>
    simp only [stepController]
    split
    · exact .controlled .idle trivial
    next v n hst =>
      split
      next hprom => exact .controlled .deleting ((h.readPolicies n).promoted hprom)
      split
      · exact .controlled .idle trivial
      next mode hmode =>
        split
        · exact .controlled .idle trivial
        next policy hpolicy =>
          have hv : (PromoteStage.got v).Ok s := hst ▸ h.controller
          obtain rfl := setPromotedLabel_eq_ok hpolicy
          exact .controlled _ ⟨hv, hmode, rfl, rfl, by simp⟩
    · exact .nothing
  | createPolicy answer =>
    simp only [stepController]
    split
    next v policy hst =>
      rcases attempt_cases answer (createPolicyIn policy) s.policies with
        ⟨policies, e, hok, heq⟩ | ⟨e, heq⟩
      · rw [heq]
        refine .promoted v policy policies _ hst hok ?_
        by_cases he : e = none
        · exact .inl (if_pos he)
        · exact .inr (if_neg he)
      · rw [heq]
        exact .controlled .idle trivial
    · exact .nothing
  | deleteProposal answer =>
    simp only [stepController]
    split
    next hst =>
      rcases attempt_cases answer Slot.delete s.proposal with ⟨slot, e, hok, heq⟩ | ⟨e, heq⟩
      · obtain ⟨cur, hc, rfl⟩ := Slot.delete_eq_ok hok
        rw [heq]
        exact .deleted cur hc ⟨answer, rfl⟩ hst
      · rw [heq]
        exact .controlled .idle trivial
    · exact .nothing

theorem step_effect (op : ProposalOp ν) : Effect s op (s.step op) := by
  cases op with
  | agent agent op => exact effect_agent h agent op
  | user op => exact effect_user h op
  | controller op => exact effect_controller h op
  | addPolicy policy =>
    simp only [step]
    split
    · split
      · exact .nothing
      next policies hok => exact .policyAdded policies (createPolicyIn_eq_ok hok).1
    · exact .nothing
  | markDeleted now =>
    simp only [step]
    split
    · exact .nothing
    next cur hc => exact .marked cur now rfl hc
  | vanish =>
    simp only [step]
    split
    · exact .nothing
    next slot hok =>
      obtain ⟨cur, hc, rfl⟩ := Slot.delete_eq_ok hok
      exact .vanished cur rfl hc

end Steps

/-! ## The invariant is kept -/

variable {s s' : ProposalRun ν} {op : ProposalOp ν}

variable (he : Effect s op s')

include he

theorem Effect.change : s.proposal.Change s'.proposal := by
  cases he with
  | learned _ _ _ _ _ _ _ _ hv => exact hv.change
  | labelled cur v _ _ hc hv => exact hv ▸ .update hc _
  | deleted cur hc _ _ => exact .delete hc
  | marked cur _ _ hc => exact .update hc _
  | vanished cur _ hc => exact .delete hc
  | _ => exact .keep

theorem Effect.key : s'.key = s.key := by
  cases he <;> rfl

theorem Effect.policiesKept : PoliciesKept s.policies s'.policies := by
  cases he with
  | promoted _ _ _ _ _ hpol _ => exact (createPolicyIn_eq_ok hpol).1
  | policyAdded _ hkept => exact hkept
  | _ => exact fun _ _ hlook => hlook

theorem Effect.agents (h : s.Sound) (agent : ν) : (s'.agents agent).Ok s.proposal.history := by
  have hupdate : ∀ agent' stage, stage.Ok s.proposal.history →
      (Function.update s.agents agent' stage agent).Ok s.proposal.history := by
    intro agent' stage hst
    by_cases heq : agent = agent'
    · subst heq
      rwa [Function.update_self]
    · rw [Function.update_of_ne heq]
      exact h.agents agent
  cases he with
  | moved agent' stage hst => exact hupdate agent' stage hst
  | finished agent' _ _ _ => exact hupdate agent' .idle trivial
  | learned agent' _ _ _ _ _ _ _ _ => exact hupdate agent' .idle trivial
  | _ => exact h.agents agent

theorem Effect.user (h : s.Sound) {v : Stored WorkloadPolicyProposal} (hv : s'.user = some v) :
    some v ∈ s.proposal.history := by
  cases he with
  | looked user huser => exact huser v hv
  | labelled _ _ _ _ _ _ => cases hv
  | _ => exact h.user v hv

theorem Effect.controller (h : s.Sound) : s'.controller.Ok s' := by
  have hkeep : ∀ stage : PromoteStage, stage.Ok s → stage.Ok s' :=
    fun _ hst => PromoteStage.Ok.mono hst he.change he.key he.policiesKept
  cases he with
  | controlled stage hst => exact hkeep stage hst
  | promoted v policy policies stage hst hpol hstage =>
    rcases hstage with rfl | rfl
    · have hcreating : (PromoteStage.creating v policy).Ok s := hst ▸ h.controller
      exact hasProposalBeenPromoted_iff.mpr
        ⟨policy.name, policy, (createPolicyIn_eq_ok hpol).2, hcreating.2.2.2.2⟩
    · trivial
  | deleted _ _ _ _ => trivial
  | _ => exact hkeep _ h.controller

theorem Effect.sound (h : s.Sound) : s'.Sound where
  slot := he.change.ok h.slot
  agents agent := LearnStage.Ok.mono (fun _ hv => he.change.mem hv) (he.agents h agent)
  user v hv := he.change.mem (he.user h hv)
  controller := he.controller h
  policies := by
    have hput : ∀ policies, PoliciesKept s.policies policies →
        ∀ older ∈ s.policies :: s.olderPolicies, PoliciesKept older policies := by
      intro policies hkept older hold
      rcases List.mem_cons.mp hold with rfl | hold
      · exact hkept
      · exact fun name wp hlook => hkept name wp (h.policies older hold name wp hlook)
    cases he with
    | promoted _ _ policies _ _ hpol _ => exact hput policies (createPolicyIn_eq_ok hpol).1
    | policyAdded policies hkept => exact hput policies hkept
    | _ => exact h.policies

omit he

theorem Sound.step (h : s.Sound) (op : ProposalOp ν) : (s.step op).Sound :=
  (step_effect h op).sound h

theorem Sound.mem_run (h : s.Sound) {x : Option (Stored WorkloadPolicyProposal)}
    (hx : x ∈ s.proposal.history) (ops : List (ProposalOp ν)) :
    x ∈ (run ProposalRun.step ops s).proposal.history := by
  have hrun : (run ProposalRun.step ops s).Sound ∧
      x ∈ (run ProposalRun.step ops s).proposal.history :=
    run_inv (C := fun _ _ => True) (I := fun s : ProposalRun ν => s.Sound ∧ x ∈ s.proposal.history)
      (fun s op hs _ => ⟨hs.1.step op, (step_effect hs.1 op).change.mem hs.2⟩) ⟨h, hx⟩
      (along_of_forall fun _ _ => trivial)
  exact hrun.2

namespace Sample

def key : ObjectMeta where
  ns := RuntimeEnforcer.Sample.ns
  name := "deploy-web"
  name_ne := by decide

def exec (path : Bytes) : KubeProcessInfo :=
  { ns := key.ns, workload := "web", workloadKind := .deployment, containerName := "nginx",
    executablePath := path }

end Sample

end ProposalRun

end RuntimeEnforcer.Api
