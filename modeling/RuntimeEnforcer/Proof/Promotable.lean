import RuntimeEnforcer.Controller.ProposalReconcile

/-!
# Which proposals can be promoted

The agents give a proposal any name an object can have, up to 253 bytes. The policy it becomes
carries that name as the value of a label, which is at most 63 bytes long, and `SetPromotedLabel`
fails for anything longer. So a labelled proposal becomes a policy exactly if its name is short
(`promotes_iff`), apart from those that are being deleted or that another policy comes from already.
A proposal with a longer name stays, and every retry ends in the same error (`stuck_of_long`).
-/

set_option autoImplicit false

namespace RuntimeEnforcer.Api

open Lib Podworkload

/-! ## The call and the steps of `ProposalRun` -/

namespace ProposalRun

variable {ν : Type}

def store (s : ProposalRun ν) : ProposalStore where
  proposal := s.proposal.current.map fun v => v.value
  policies := s.policies

/-- How the server answers the `Create` the controller is about to send. -/
def createAnswer (accepts : PromotedPolicy → Bool) : PromoteStage → Answer
  | .creating _ policy => if accepts policy then .answered else .refused 422
  | _ => .answered

/-- The steps of a call that nobody disturbs. -/
def undisturbed (accepts : PromotedPolicy → Bool) (s : ProposalRun ν) : ProposalRun ν :=
  let s := s.stepController (.get (.behind 0))
  let s := s.stepController (.hasProposalBeenPromoted (.behind 0))
  let s := s.stepController (.createPolicy (createAnswer accepts s.controller))
  s.stepController (.deleteProposal .answered)

theorem readPolicies_zero (s : ProposalRun ν) : s.readPolicies 0 = s.policies := rfl

theorem createPolicyIn_error {policy : PromotedPolicy} {policies : GoMap String PromotedPolicy}
    {e : WriteErr} (h : createPolicyIn policy policies = .error e) : e = .alreadyExists := by
  unfold createPolicyIn at h
  split at h
  · exact (Except.error.inj h).symm
  · cases h

/-- **`reconcile` is what the steps come to.** -/
theorem store_undisturbed (accepts : PromotedPolicy → Bool) {s : ProposalRun ν}
    (hidle : s.controller = .idle) :
    (undisturbed accepts s).store = (reconcile accepts s.key s.store).1 := by
  have hread : s.proposal.read 0 = s.proposal.current := rfl
  unfold undisturbed reconcile store
  cases hcur : s.proposal.current with
  | none => simp [stepController, hidle, hread, hcur]
  | some v =>
    by_cases hdel : v.value.deletionTimestamp.isSome = true
    · simp [stepController, hidle, hread, hcur, hdel]
    · have hget : s.stepController (.get (.behind 0)) = { s with controller := .got v } := by
        simp [stepController, hidle, hread, hcur, hdel]
      rw [hget]
      by_cases hpromoted : hasProposalBeenPromoted s.policies s.key.name = true
      · simp [stepController, hcur, hdel, readPolicies_zero, hpromoted, attempt, Slot.delete,
          Slot.put]
      · cases hlabel : v.value.hasPromotionLabel with
        | none => simp [stepController, hcur, hdel, readPolicies_zero, hpromoted, hlabel]
        | some mode =>
          cases hset : (v.value.intoWorkloadPolicy s.key mode).setPromotedLabel s.key.name with
          | error e => simp [stepController, hcur, hdel, readPolicies_zero, hpromoted, hlabel, hset]
          | ok policy =>
            have hcheck : ({ s with controller := .got v } : ProposalRun ν).stepController
                (.hasProposalBeenPromoted (.behind 0)) =
                { s with controller := .creating v policy } := by
              simp [stepController, readPolicies_zero, hpromoted, hlabel, hset]
            dsimp only
            rw [hcheck]
            by_cases haccepts : accepts policy = true
            · cases hcreate : createPolicyIn policy s.policies with
              | error e =>
                obtain rfl := createPolicyIn_error hcreate
                simp [stepController, hcur, hdel, hpromoted, hlabel, hset, createAnswer,
                  tryCreatePolicy, haccepts, attempt, hcreate]
              | ok policies =>
                simp [stepController, hcur, hdel, hpromoted, hlabel, hset, createAnswer,
                  tryCreatePolicy, haccepts, attempt, hcreate, putPolicies, Slot.delete, Slot.put]
            · simp [stepController, hcur, hdel, hpromoted, hlabel, hset, createAnswer,
                tryCreatePolicy, haccepts, attempt]

end ProposalRun

/-! ## Names -/

theorem setPromotedLabel_eq (wp : PromotedPolicy) {proposalName : String}
    (h : proposalName.utf8ByteSize ≤ 63) : wp.setPromotedLabel proposalName =
      .ok { wp with labels := wp.labels.insert policyPromotedFromLabelKey proposalName } :=
  if_neg (Nat.not_lt.mpr h)

theorem setPromotedLabel_error (wp : PromotedPolicy) {proposalName : String}
    (h : 63 < proposalName.utf8ByteSize) :
    ∃ e, wp.setPromotedLabel proposalName = .error e := ⟨_, if_pos h⟩

theorem getWorkloadPolicyProposalName_size {kind : Kind} {resourceName name : String}
    (h : getWorkloadPolicyProposalName kind resourceName = .ok name) :
    name.utf8ByteSize ≤ 253 := by
  unfold getWorkloadPolicyProposalName at h
  split at h
  · cases h
  · next shortname _ =>
    dsimp only at h
    split at h
    · cases h
    · next hsize =>
      cases h
      exact Nat.not_lt.mp hsize

theorem getWorkloadPolicyProposalName_eq {kind : Kind} {shortname : String}
    (hshort : kind.shortName = some shortname) {resourceName : String}
    (hsize : (shortname ++ "-" ++ resourceName).utf8ByteSize ≤ 253) :
    getWorkloadPolicyProposalName kind resourceName = .ok (shortname ++ "-" ++ resourceName) := by
  rw [getWorkloadPolicyProposalName, hshort]
  exact if_neg (Nat.not_lt.mpr hsize)

/-! ## Promotion -/

/-- The call turns the proposal into a policy: it is created with the proposal's rules in the mode
that the label asks for, the proposal is deleted and there is no error. -/
structure Promotes (accepts : PromotedPolicy → Bool) (key : ObjectMeta) (c : ProposalStore)
    (proposal : WorkloadPolicyProposal) (mode : Mode) : Prop where
  noError : (reconcile accepts key c).2 = none
  created : ∃ policy, (reconcile accepts key c).1.policies.lookup key.name = some policy ∧
    policy.mode = mode ∧ policy.rulesByContainer = proposal.rulesByContainer
  deleted : (reconcile accepts key c).1.proposal = none

section Promotion

variable {accepts : PromotedPolicy → Bool} {key : ObjectMeta} {c : ProposalStore}
  {proposal : WorkloadPolicyProposal} {mode : Mode}

theorem valid_promoted (hname : SubdomainName key.name)
    (hrules : ValidRules proposal.rulesByContainer) (hsize : key.name.utf8ByteSize ≤ 63)
    {policy : PromotedPolicy}
    (hpolicy : (proposal.intoWorkloadPolicy key mode).setPromotedLabel key.name = .ok policy) :
    policy.Valid := by
  rw [setPromotedLabel_eq _ hsize] at hpolicy
  cases hpolicy
  refine ⟨hname, fun k v hk => ?_, hrules⟩
  have hlook : (AList.insert policyPromotedFromLabelKey key.name
      (∅ : GoMap String String)).lookup k = some v := hk
  rw [GoMap.lookup_insert_eq] at hlook
  split at hlook
  · next heq =>
    cases hlook
    exact ⟨heq, LabelValue.of_subdomainName hname hsize⟩
  · cases hlook

/-- A longer name stays without a policy, whatever the server takes and however often the call is
repeated. -/
theorem stuck_of_long (accepts : PromotedPolicy → Bool) (hstored : c.proposal = some proposal)
    (hdeletion : proposal.deletionTimestamp = none)
    (hpromoted : hasProposalBeenPromoted c.policies key.name = false)
    (hlabel : proposal.hasPromotionLabel = some mode) (hlong : 63 < key.name.utf8ByteSize) :
    ∃ e, ∀ n, reconcileAgain accepts key c n = (c, some (.setPromotedLabel e)) := by
  obtain ⟨e, he⟩ := setPromotedLabel_error (proposal.intoWorkloadPolicy key mode) hlong
  have hcall : reconcile accepts key c = (c, some (.setPromotedLabel e)) := by
    simp [reconcile, hstored, hdeletion, hpromoted, hlabel, he]
  have hstays : ∀ n, (fun c => (reconcile accepts key c).1)^[n] c = c := by
    intro n
    exact Function.iterate_fixed (by rw [hcall]) n
  refine ⟨e, fun n => ?_⟩
  rw [reconcileAgain, hstays, hcall]

theorem reconcile_eq {policy : PromotedPolicy} (hstored : c.proposal = some proposal)
    (hdeletion : proposal.deletionTimestamp = none)
    (hpromoted : hasProposalBeenPromoted c.policies key.name = false)
    (hlabel : proposal.hasPromotionLabel = some mode)
    (hset : (proposal.intoWorkloadPolicy key mode).setPromotedLabel key.name = .ok policy)
    (htaken : accepts policy = true) (hfree : c.policies.lookup policy.name = none) :
    reconcile accepts key c =
      ({ proposal := none, policies := c.policies.insert policy.name policy }, none) := by
  have hcreate : tryCreatePolicy accepts policy c.policies =
      .ok (c.policies.insert policy.name policy) := by
    simp [tryCreatePolicy, htaken, createPolicyIn, hfree]
  simp [reconcile, hstored, hdeletion, hpromoted, hlabel, hset, hcreate]

/-- **A labelled proposal is promoted exactly if its name is short**, it is not being deleted and no
policy comes from it yet. -/
theorem promotes_iff (haccepts : ∀ policy : PromotedPolicy, policy.Valid → accepts policy = true)
    {kind : Kind} {resourceName : String}
    (hname : getWorkloadPolicyProposalName kind resourceName = .ok key.name)
    (hmatch : matchesSubdomain key.name.toList = true) (hstored : c.proposal = some proposal)
    (hrules : ValidRules proposal.rulesByContainer)
    (hlabel : proposal.hasPromotionLabel = some mode)
    (hfree : c.policies.lookup key.name = none) :
    Promotes accepts key c proposal mode ↔
      key.name.utf8ByteSize ≤ 63 ∧ proposal.deletionTimestamp = none ∧
        hasProposalBeenPromoted c.policies key.name = false := by
  constructor
  · intro h
    obtain ⟨policy, hpolicy, _⟩ := h.created
    -- in the other cases there is no policy of the name afterwards
    have hdeletion : proposal.deletionTimestamp = none := by
      cases hdel : proposal.deletionTimestamp with
      | none => rfl
      | some t =>
        simp [reconcile, hstored, hdel, hfree] at hpolicy
    have hpromoted : hasProposalBeenPromoted c.policies key.name = false := by
      cases hprom : hasProposalBeenPromoted c.policies key.name with
      | false => rfl
      | true => simp [reconcile, hstored, hdeletion, hprom, hfree] at hpolicy
    refine ⟨Nat.not_lt.mp fun hlong => ?_, hdeletion, hpromoted⟩
    obtain ⟨e, hstuck⟩ := stuck_of_long accepts hstored hdeletion hpromoted hlabel hlong
    have hfirst : reconcile accepts key c = _ := hstuck 0
    have herror := h.noError
    rw [hfirst] at herror
    cases herror
  · rintro ⟨hsize, hdeletion, hpromoted⟩
    have hsubdomain : SubdomainName key.name :=
      ⟨getWorkloadPolicyProposalName_size hname, hmatch⟩
    have hset := setPromotedLabel_eq (proposal.intoWorkloadPolicy key mode) hsize
    have htaken := haccepts _ (valid_promoted hsubdomain hrules hsize hset)
    have hcall := reconcile_eq hstored hdeletion hpromoted hlabel hset htaken hfree
    exact {
      noError := by rw [hcall]
      created := ⟨_, by rw [hcall]; exact AList.lookup_insert _, rfl, rfl⟩
      deleted := by rw [hcall] }

end Promotion

namespace Sample

def learned : WorkloadPolicyProposal where
  labels := AList.singleton proposalPromoteLabelKey "protect"
  rulesByContainer := AList.singleton "app" { allowed := [[0x2f, 0x61]] }

theorem validRules_learned : ValidRules learned.rulesByContainer := by
  intro c rules hlook path hpath
  obtain ⟨rfl, heq⟩ := Sigma.mk.inj (List.mem_singleton.mp (GoMap.mem_entries.mpr hlook))
  cases heq
  cases List.mem_singleton.mp hpath
  decide

def longName : String := String.ofList (List.replicate 60 'a')

def longKey : ObjectMeta := ⟨RuntimeEnforcer.Sample.prod, "deploy" ++ "-" ++ longName, by decide⟩

/-- **A proposal with a name of 67 bytes** is never promoted: each call ends in the error of
`SetPromotedLabel`. -/
theorem long_name_stuck :
    getWorkloadPolicyProposalName .deployment longName = .ok longKey.name ∧
    SubdomainName longKey.name ∧ ValidRules learned.rulesByContainer ∧
    learned.hasPromotionLabel = some .protect ∧
    ∀ accepts, ¬ Promotes accepts longKey ⟨some learned, ∅⟩ learned .protect ∧
      ∃ e, ∀ n, reconcileAgain accepts longKey ⟨some learned, ∅⟩ n =
        (⟨some learned, ∅⟩, some (.setPromotedLabel e)) := by
  have hlabel : learned.hasPromotionLabel = some .protect := by decide +kernel
  refine ⟨getWorkloadPolicyProposalName_eq rfl (by decide +kernel), by decide +kernel,
    validRules_learned, hlabel, fun accepts => ?_⟩
  have hlong : 63 < longKey.name.utf8ByteSize := by decide +kernel
  have hstored : (⟨some learned, ∅⟩ : ProposalStore).proposal = some learned := rfl
  obtain ⟨e, hstuck⟩ := stuck_of_long accepts hstored rfl rfl hlabel hlong
  refine ⟨fun h => ?_, e, hstuck⟩
  have hdeleted := h.deleted
  have hfirst : reconcile accepts longKey ⟨some learned, ∅⟩ = _ := hstuck 0
  rw [hfirst] at hdeleted
  cases hdeleted

def shortKey : ObjectMeta := ⟨RuntimeEnforcer.Sample.prod, "deploy" ++ "-" ++ "web", by decide⟩

theorem promotes_short : Promotes (fun _ => true) shortKey ⟨some learned, ∅⟩ learned .protect := by
  have hname : getWorkloadPolicyProposalName .deployment "web" = .ok shortKey.name :=
    getWorkloadPolicyProposalName_eq rfl (by decide +kernel)
  have hlabel : learned.hasPromotionLabel = some .protect := by decide +kernel
  exact (promotes_iff (fun _ _ => rfl) hname (by decide +kernel) rfl validRules_learned hlabel
    rfl).mpr ⟨by decide +kernel, rfl, rfl⟩

end Sample

end RuntimeEnforcer.Api
