import RuntimeEnforcer.Proof.ProposalRuns

/-!
# Learning loses nothing

Any number of agents learn into one proposal. The argument has two halves. One is about one
proposal: the mutation of an event only appends (`Grows`), keeps the lists free of duplicates and
their total within the bound (`Tidy`), and afterwards has the event's executable unless the proposal
is full. The other is about the store: every version that was ever stored grows into the one that
is stored, because each write replaces the version it was computed from. So a call that found the
executable in an old copy, and wrote nothing, is right about the proposal that is stored.
-/

set_option autoImplicit false

namespace RuntimeEnforcer.Api

open Lib

/-! ## One proposal -/

/-- The rules of a container have become `r'`. -/
structure RulesGrow (r r' : WorkloadPolicyRules) : Prop where
  allowed : r.allowed <+: r'.allowed
  options : ∀ k, (r.options.lookup k).isSome = true → (r'.options.lookup k).isSome = true
  foreign : r.allowForeignRootExec = true → r'.allowForeignRootExec = true

theorem RulesGrow.refl (r : WorkloadPolicyRules) : RulesGrow r r :=
  ⟨List.prefix_rfl, fun _ h => h, fun h => h⟩

theorem RulesGrow.trans {r r' r'' : WorkloadPolicyRules} (h : RulesGrow r r')
    (h' : RulesGrow r' r'') : RulesGrow r r'' :=
  ⟨h.allowed.trans h'.allowed, fun k hk => h'.options k (h.options k hk),
    fun hf => h'.foreign (h.foreign hf)⟩

theorem RulesGrow.append (r : WorkloadPolicyRules) (exe : Bytes) :
    RulesGrow r { r with allowed := r.allowed ++ [exe] } :=
  ⟨List.prefix_append _ _, fun _ h => h, fun h => h⟩

theorem RulesGrow.setOption (r : WorkloadPolicyRules) :
    RulesGrow r { r with options := r.options.insert optionAllowForeignRootExec "1" } where
  allowed := List.prefix_rfl
  options k hk := by
    rw [GoMap.lookup_insert_eq]
    split
    · rfl
    · exact hk
  foreign _ := by
    rw [WorkloadPolicyRules.allowForeignRootExec, AList.lookup_insert]
    decide

namespace WorkloadPolicyProposal

variable {p p' p'' : WorkloadPolicyProposal}

/-- The rules of a container; none are empty ones. -/
def rulesOf (p : WorkloadPolicyProposal) (c : ContainerName) : WorkloadPolicyRules :=
  (p.rulesByContainer.lookup c).getD { allowed := [] }

/-- Nothing was removed. -/
structure Grows (p p' : WorkloadPolicyProposal) : Prop where
  rules : ∀ c r, p.rulesByContainer.lookup c = some r →
    ∃ r', p'.rulesByContainer.lookup c = some r' ∧ RulesGrow r r'
  length : p.getExecutablesLength ≤ p'.getExecutablesLength

/-- No list has a path twice, and there are at most a hundred paths. -/
structure Tidy (p : WorkloadPolicyProposal) : Prop where
  nodup : ∀ c r, p.rulesByContainer.lookup c = some r → r.allowed.Nodup
  bounded : p.getExecutablesLength ≤ policyProposalMaxExecutables

theorem Grows.of_rules_eq (h : p'.rulesByContainer = p.rulesByContainer) : p.Grows p' where
  rules c r hr := ⟨r, h ▸ hr, .refl r⟩
  length := by simp only [getExecutablesLength, h, le_refl]

theorem Grows.trans (h : p.Grows p') (h' : p'.Grows p'') : p.Grows p'' where
  rules c r hr := by
    obtain ⟨r', hr', hg⟩ := h.rules c r hr
    obtain ⟨r'', hr'', hg'⟩ := h'.rules c r' hr'
    exact ⟨r'', hr'', hg.trans hg'⟩
  length := h.length.trans h'.length

theorem Grows.allowed (h : p.Grows p') {c : ContainerName} {exe : Bytes}
    (hexe : exe ∈ (p.rulesOf c).allowed) : exe ∈ (p'.rulesOf c).allowed := by
  cases hr : p.rulesByContainer.lookup c with
  | none => simp [rulesOf, hr] at hexe
  | some r =>
    obtain ⟨r', hr', hg⟩ := h.rules c r hr
    have hexe : exe ∈ r.allowed := by simpa [rulesOf, hr] using hexe
    simpa [rulesOf, hr'] using hg.allowed.subset hexe

theorem Grows.isFull (h : p.Grows p') (hfull : p.isFull = true) : p'.isFull = true :=
  decide_eq_true ((of_decide_eq_true hfull : policyProposalMaxExecutables ≤ _).trans h.length)

/-! ### Replacing the rules of one container -/

section Insert

variable {c : ContainerName} {r' : WorkloadPolicyRules}
  (h : p'.rulesByContainer = p.rulesByContainer.insert c r')
include h

theorem rulesOf_insert (c' : ContainerName) :
    p'.rulesOf c' = if c' = c then r' else p.rulesOf c' := by
  rw [rulesOf, h, GoMap.lookup_insert_eq]
  split <;> rfl

theorem length_insert : p'.getExecutablesLength + (p.rulesOf c).allowed.length =
    p.getExecutablesLength + r'.allowed.length := by
  have hsum := GoMap.sum_insert (fun value : WorkloadPolicyRules => value.allowed.length)
    p.rulesByContainer c r'
  rw [← h] at hsum
  have hlen : ((p.rulesByContainer.lookup c).map
      fun value : WorkloadPolicyRules => value.allowed.length).getD 0 =
      (p.rulesOf c).allowed.length := by
    cases hr : p.rulesByContainer.lookup c <;> simp [rulesOf, hr]
  rw [hlen] at hsum
  exact hsum

theorem grows_insert (hgrow : RulesGrow (p.rulesOf c) r') : p.Grows p' where
  rules c' r hr := by
    by_cases hc : c' = c
    · subst hc
      have hold : p.rulesOf c' = r := by rw [rulesOf, hr, Option.getD_some]
      exact ⟨r', by rw [h, AList.lookup_insert], hold ▸ hgrow⟩
    · exact ⟨r, by rw [h, AList.lookup_insert_ne hc, hr], .refl r⟩
  length := by
    have hlen := length_insert h
    have hle := hgrow.allowed.length_le
    omega

theorem tidy_insert (htidy : p.Tidy) (hnodup : r'.allowed.Nodup)
    (hlen : p'.getExecutablesLength ≤ policyProposalMaxExecutables) : p'.Tidy where
  nodup c' r hr := by
    rw [h, GoMap.lookup_insert_eq] at hr
    split at hr
    · obtain rfl := Option.some.inj hr
      exact hnodup
    · exact htidy.nodup c' r hr
  bounded := hlen

end Insert

theorem Tidy.rulesOf (h : p.Tidy) (c : ContainerName) : (p.rulesOf c).allowed.Nodup := by
  cases hr : p.rulesByContainer.lookup c with
  | none => simp [WorkloadPolicyProposal.rulesOf, hr]
  | some r => simpa [WorkloadPolicyProposal.rulesOf, hr] using h.nodup c r hr

theorem Tidy.of_length_zero (h : p.getExecutablesLength = 0) : p.Tidy where
  nodup c r hr := by
    have hle := GoMap.le_sum (fun value : WorkloadPolicyRules => value.allowed.length) hr
    have hzero : r.allowed.length = 0 := Nat.le_zero.mp (h ▸ hle)
    rw [List.length_eq_zero_iff.mp hzero]
    exact List.nodup_nil
  bounded := by rw [h]; exact Nat.zero_le _

theorem addProcess_cases (p : WorkloadPolicyProposal) (c : ContainerName) (exe : Bytes) :
    (exe ∈ (p.rulesOf c).allowed ∧ p.addProcess c exe = p) ∨
      (exe ∉ (p.rulesOf c).allowed ∧ (p.addProcess c exe).rulesByContainer =
        p.rulesByContainer.insert c
          { p.rulesOf c with allowed := (p.rulesOf c).allowed ++ [exe] }) := by
  cases hr : p.rulesByContainer.lookup c with
  | none => simp [rulesOf, addProcess, hr]
  | some r => by_cases hexe : exe ∈ r.allowed <;> simp [rulesOf, addProcess, hr, hexe]

theorem rules_setAllowForeignRootExec (p : WorkloadPolicyProposal) (c : ContainerName) :
    (p.setAllowForeignRootExec c).rulesByContainer = p.rulesByContainer.insert c
      { p.rulesOf c with
        options := (p.rulesOf c).options.insert optionAllowForeignRootExec "1" } := by
  cases hr : p.rulesByContainer.lookup c <;> simp [rulesOf, setAllowForeignRootExec, hr]

end WorkloadPolicyProposal

end RuntimeEnforcer.Api

namespace RuntimeEnforcer.Eventhandler

open Lib Api

variable {req : KubeProcessInfo} {p : WorkloadPolicyProposal}

/-- **What an event does to the rules**: nothing, the option of its container, or one path at the
end of the list of its container. -/
theorem rules_mutate (req : KubeProcessInfo) (p : WorkloadPolicyProposal) :
    (mutate req p).rulesByContainer = p.rulesByContainer ∨
      (req.foreignRoot = true ∧ (mutate req p).rulesByContainer =
        p.rulesByContainer.insert req.containerName
          { p.rulesOf req.containerName with
            options := (p.rulesOf req.containerName).options.insert
              optionAllowForeignRootExec "1" }) ∨
      (req.foreignRoot = false ∧ p.getExecutablesLength < policyProposalMaxExecutables ∧
        req.executablePath ∉ (p.rulesOf req.containerName).allowed ∧
        (mutate req p).rulesByContainer = p.rulesByContainer.insert req.containerName
          { p.rulesOf req.containerName with
            allowed := (p.rulesOf req.containerName).allowed ++ [req.executablePath] }) := by
  unfold mutate
  split
  · exact .inl rfl
  split
  next hforeign =>
    rw [rules_enrichOwnerRef, WorkloadPolicyProposal.rules_setAllowForeignRootExec]
    exact .inr (.inl ⟨hforeign, rfl⟩)
  next hforeign =>
    split
    · exact .inl rfl
    next hfull =>
      rw [rules_enrichOwnerRef]
      rcases p.addProcess_cases req.containerName req.executablePath with ⟨-, heq⟩ | ⟨hexe, heq⟩
      · exact .inl (by rw [heq])
      · refine .inr (.inr ⟨by simpa using hforeign, ?_, hexe, heq⟩)
        simpa [WorkloadPolicyProposal.isFull] using hfull

theorem grows_mutate (req : KubeProcessInfo) (p : WorkloadPolicyProposal) :
    p.Grows (mutate req p) := by
  rcases rules_mutate req p with h | ⟨-, h⟩ | ⟨-, -, -, h⟩
  · exact .of_rules_eq h
  · exact WorkloadPolicyProposal.grows_insert h (.setOption _)
  · exact WorkloadPolicyProposal.grows_insert h (.append _ _)

theorem tidy_mutate (req : KubeProcessInfo) (hp : p.Tidy) : (mutate req p).Tidy := by
  rcases rules_mutate req p with h | ⟨-, h⟩ | ⟨-, hlt, hexe, h⟩
  · exact ⟨fun c r hr => hp.nodup c r (h ▸ hr), by
      have := hp.bounded
      rwa [WorkloadPolicyProposal.getExecutablesLength, h]⟩
  · have hlen := WorkloadPolicyProposal.length_insert h
    exact WorkloadPolicyProposal.tidy_insert h hp (hp.rulesOf _) (by
      have := hp.bounded
      simp only at hlen
      omega)
  · have hlen := WorkloadPolicyProposal.length_insert h
    refine WorkloadPolicyProposal.tidy_insert h hp ?_ (by
      simp only [List.length_append, List.length_singleton] at hlen
      omega)
    exact List.concat_eq_append ▸ (hp.rulesOf _).concat hexe

theorem mutate_adds {c : ContainerName} {path : Bytes}
    (hnew : path ∈ ((mutate req p).rulesOf c).allowed) (hold : path ∉ (p.rulesOf c).allowed) :
    req.foreignRoot = false ∧ req.containerName = c ∧ req.executablePath = path := by
  rcases rules_mutate req p with h | ⟨-, h⟩ | ⟨hforeign, -, -, h⟩
  · rw [WorkloadPolicyProposal.rulesOf, h] at hnew
    exact absurd hnew hold
  · rw [WorkloadPolicyProposal.rulesOf_insert h] at hnew
    split at hnew
    next hc => exact absurd (hc ▸ hnew) (hc ▸ hold)
    next => exact absurd hnew hold
  · rw [WorkloadPolicyProposal.rulesOf_insert h] at hnew
    split at hnew
    next hc =>
      subst hc
      rcases List.mem_append.mp hnew with hmem | hmem
      · exact absurd hmem hold
      · exact ⟨hforeign, rfl, (List.mem_singleton.mp hmem).symm⟩
    next => exact absurd hnew hold

/-- The proposal has what the event would teach it: the executable is there, or there is no room
for it. -/
def Has (p : WorkloadPolicyProposal) (req : KubeProcessInfo) : Prop :=
  req.executablePath ∈ (p.rulesOf req.containerName).allowed ∨ p.isFull = true

theorem Has.grows {p' : WorkloadPolicyProposal} (h : Has p req) (hg : p.Grows p') : Has p' req :=
  h.imp hg.allowed hg.isFull

theorem rules_mutate_of_room (hlabel : p.hasPromotionLabel = none)
    (hforeign : req.foreignRoot = false) (hroom : ¬ p.isFull = true) :
    (mutate req p).rulesByContainer =
      (p.addProcess req.containerName req.executablePath).rulesByContainer := by
  have heq : mutate req p =
      enrichOwnerRef req (p.addProcess req.containerName req.executablePath) := by
    simp [mutate, hlabel, hforeign, hroom]
  rw [heq, rules_enrichOwnerRef]

theorem has_mutate (hlabel : p.hasPromotionLabel = none) (hforeign : req.foreignRoot = false) :
    Has (mutate req p) req := by
  by_cases hfull : p.isFull = true
  · exact .inr ((grows_mutate req p).isFull hfull)
  · rw [Has, WorkloadPolicyProposal.rulesOf, rules_mutate_of_room hlabel hforeign hfull]
    rcases p.addProcess_cases req.containerName req.executablePath with ⟨hexe, hsame⟩ | ⟨-, hrules⟩
    · exact .inl (by rw [hsame]; exact hexe)
    · exact .inl (by rw [hrules]; simp)

theorem has_of_deepEqual (h : p.deepEqual (mutate req p) = true)
    (hlabel : p.hasPromotionLabel = none) (hforeign : req.foreignRoot = false) : Has p req := by
  by_cases hfull : p.isFull = true
  · exact .inr hfull
  rcases p.addProcess_cases req.containerName req.executablePath with ⟨hexe, -⟩ | ⟨-, hrules⟩
  · exact .inl hexe
  · have hlook : (mutate req p).rulesByContainer.lookup req.containerName = some
        { p.rulesOf req.containerName with
          allowed := (p.rulesOf req.containerName).allowed ++ [req.executablePath] } := by
      rw [rules_mutate_of_room hlabel hforeign hfull, hrules, AList.lookup_insert]
    obtain ⟨r, hr, hsame⟩ := WorkloadPolicyProposal.deepEqual_allowed h hlook
    refine .inl ?_
    rw [WorkloadPolicyProposal.rulesOf, hr, Option.getD_some, hsame]
    simp

end RuntimeEnforcer.Eventhandler

namespace RuntimeEnforcer.Api

open Lib Eventhandler

variable {req : KubeProcessInfo} {proposal : Option WorkloadPolicyProposal}
  {slot : Slot WorkloadPolicyProposal} {v : Stored WorkloadPolicyProposal}

namespace ProposalRun

variable {ν : Type} [DecidableEq ν] {s s' : ProposalRun ν} {op : ProposalOp ν}

/-- The proposal is only changed by learning: nobody labels or deletes it. -/
def OnlyLearning : ProposalOp ν → Prop
  | .user (.update _ _) => False
  | .controller (.deleteProposal _) => False
  | .markDeleted _ => False
  | .vanish => False
  | _ => True

theorem Effect.learning (he : Effect s op s') (hop : OnlyLearning op) :
    s'.proposal = s.proposal ∨ ∃ agent req write answer v,
      op = .agent agent (.write answer) ∧ s.agents agent = .writing req write ∧
        Learns s.proposal req v ∧ s'.proposal = s.proposal.put (some v) := by
  cases he with
  | learned agent req outcome write answer hop' hst v hv =>
    exact .inr ⟨agent, req, write, answer, v, hop', hst, hv, rfl⟩
  | labelled cur v mode hop' hc hv =>
    obtain ⟨answer, rfl⟩ := hop'
    exact hop.elim
  | deleted cur hc hop' hst =>
    obtain ⟨answer, rfl⟩ := hop'
    exact hop.elim
  | marked cur now hop' hc =>
    subst hop'
    exact hop.elim
  | vanished cur hop' hc =>
    subst hop'
    exact hop.elim
  | _ => exact .inl rfl

theorem Effect.results (he : Effect s op s') (hacc : ¬ Rejected op)
    (hreq : (req, Outcome.learned) ∈ s'.results) :
    (req, Outcome.learned) ∈ s.results ∨ UpToDate s.proposal.history req ∨
      ∃ v, Learns s.proposal req v ∧ s'.proposal.current = some v := by
  cases he with
  | finished agent req' outcome hout =>
    rcases List.mem_cons.mp hreq with heq | hold
    · obtain ⟨rfl, rfl⟩ := Prod.mk.inj heq
      exact .inr (.inl ((hout rfl).resolve_right hacc))
    · exact .inl hold
  | learned agent req' outcome write answer hop hst v hv =>
    rcases List.mem_cons.mp hreq with heq | hold
    · obtain ⟨rfl, rfl⟩ := Prod.mk.inj heq
      exact .inr (.inr ⟨v, hv, rfl⟩)
    · exact .inl hold
  | _ => exact .inl hreq

end ProposalRun

/-- Every version was tidy and has grown into the stored one, with the same label. -/
structure Growing (slot : Slot WorkloadPolicyProposal) : Prop where
  tidy : ∀ v, some v ∈ slot.history → v.value.Tidy
  grows : ∀ v, some v ∈ slot.history → ∃ cur, slot.current = some cur ∧
    v.value.Grows cur.value ∧ cur.value.hasPromotionLabel = v.value.hasPromotionLabel

theorem Growing.start (h : ∀ p, proposal = some p → p.getExecutablesLength = 0) :
    Growing (Slot.start proposal) := by
  have hmem : ∀ v, some v ∈ (Slot.start proposal).history →
      (Slot.start proposal).current = some v := fun v hv => (List.mem_singleton.mp hv).symm
  constructor
  · intro v hv
    obtain ⟨p, hp, rfl⟩ := Option.map_eq_some_iff.mp (hmem v hv)
    exact .of_length_zero (h p hp)
  · intro v hv
    exact ⟨v, hmem v hv, .of_rules_eq rfl, rfl⟩

theorem Growing.storedValue_tidy (h : Growing slot) : (storedValue slot).Tidy := by
  cases hc : slot.current with
  | none =>
    rw [storedValue, hc]
    exact .of_length_zero rfl
  | some cur =>
    rw [storedValue, hc]
    exact h.tidy cur (hc ▸ slot.current_mem)

theorem Growing.learns (h : Growing slot) (hv : Learns slot req v) :
    Growing (slot.put (some v)) := by
  constructor
  · intro w hw
    rcases Slot.mem_put.mp hw with heq | hold
    · obtain rfl := Option.some.inj heq
      exact hv.value ▸ tidy_mutate req h.storedValue_tidy
    · exact h.tidy w hold
  · intro w hw
    refine ⟨v, rfl, ?_⟩
    rcases Slot.mem_put.mp hw with heq | hold
    · obtain rfl := Option.some.inj heq
      exact ⟨.of_rules_eq rfl, rfl⟩
    · obtain ⟨cur, hc, hg, hl⟩ := h.grows w hold
      have hstored : storedValue slot = cur.value := by rw [storedValue, hc]; rfl
      rw [hv.value, hstored, hasPromotionLabel_mutate]
      exact ⟨hg.trans (grows_mutate req cur.value), hl⟩

/-- No version that was ever stored has a promotion label. -/
def Unlabelled (slot : Slot WorkloadPolicyProposal) : Prop :=
  ∀ v, some v ∈ slot.history → v.value.hasPromotionLabel = none

theorem Unlabelled.start (h : ∀ p, proposal = some p → p.hasPromotionLabel = none) :
    Unlabelled (Slot.start proposal) := by
  intro v hv
  have hcur : (Slot.start proposal).current = some v := (List.mem_singleton.mp hv).symm
  obtain ⟨p, hp, rfl⟩ := Option.map_eq_some_iff.mp hcur
  exact h p hp

theorem Unlabelled.label_storedValue (h : Unlabelled slot) :
    (storedValue slot).hasPromotionLabel = none := by
  cases hc : slot.current with
  | none =>
    rw [storedValue, hc]
    rfl
  | some cur =>
    rw [storedValue, hc]
    exact h cur (hc ▸ slot.current_mem)

theorem Unlabelled.learns (h : Unlabelled slot) (hv : Learns slot req v) :
    Unlabelled (slot.put (some v)) := by
  intro w hw
  rcases Slot.mem_put.mp hw with heq | hold
  · obtain rfl := Option.some.inj heq
    rw [hv.value, hasPromotionLabel_mutate]
    exact h.label_storedValue
  · exact h w hold

namespace ProposalRun

variable {ν : Type} [DecidableEq ν] {s s' : ProposalRun ν} {op : ProposalOp ν}

/-- **The invariant.** What the agents take for learned is there, unless the proposal has a
promotion label: an event of a labelled proposal is not learned, and `mutate` returns the proposal
as it is. Whether there can be a label is a question about the start alone (`Unlabelled`). -/
structure Learning (s : ProposalRun ν) : Prop where
  sound : s.Sound
  growing : Growing s.proposal
  learned : ∀ req, (req, Outcome.learned) ∈ s.results → req.foreignRoot = false →
    ∃ cur, s.proposal.current = some cur ∧ (cur.value.hasPromotionLabel = none → Has cur.value req)

theorem Effect.growing (he : Effect s op s') (hop : OnlyLearning op) (h : Growing s.proposal) :
    Growing s'.proposal := by
  rcases he.learning hop with heq | ⟨_, req, _, _, v, -, -, hv, heq⟩
  · exact heq ▸ h
  · exact heq ▸ h.learns hv

theorem Effect.unlabelled (he : Effect s op s') (hop : OnlyLearning op)
    (h : Unlabelled s.proposal) : Unlabelled s'.proposal := by
  rcases he.learning hop with heq | ⟨_, req, _, _, v, -, -, hv, heq⟩
  · exact heq ▸ h
  · exact heq ▸ h.learns hv

theorem has_of_mem (h : Growing slot) (hv : some v ∈ slot.history)
    (hhas : v.value.hasPromotionLabel = none → Has v.value req) :
    ∃ cur, slot.current = some cur ∧ (cur.value.hasPromotionLabel = none → Has cur.value req) := by
  obtain ⟨cur, hc, hg, hl⟩ := h.grows v hv
  exact ⟨cur, hc, fun hnone => (hhas (hl ▸ hnone)).grows hg⟩

theorem Learning.step (h : s.Learning) (hop : OnlyLearning op) (hacc : ¬ Rejected op) :
    (s.step op).Learning := by
  have he := step_effect h.sound op
  have hgrow := he.growing hop h.growing
  refine ⟨he.sound h.sound, hgrow, fun req hreq hforeign => ?_⟩
  rcases he.results hacc hreq with hold | ⟨base, hbase, heq⟩ | ⟨v, hv, hcur⟩
  · obtain ⟨cur, hc, hhas⟩ := h.learned req hold hforeign
    exact has_of_mem hgrow (he.change.mem (hc ▸ s.proposal.current_mem)) hhas
  · exact has_of_mem hgrow (he.change.mem hbase) fun hl => has_of_deepEqual heq hl hforeign
  · refine ⟨v, hcur, fun hl => ?_⟩
    rw [hv.value] at hl ⊢
    exact has_mutate (hasPromotionLabel_mutate req _ ▸ hl) hforeign

omit [DecidableEq ν] in
theorem Learning.start {key : ObjectMeta} {policies : GoMap String PromotedPolicy}
    (h : ∀ p, proposal = some p → p.getExecutablesLength = 0) :
    (ProposalRun.start key proposal policies : ProposalRun ν).Learning :=
  ⟨Sound.start key proposal policies, Growing.start h, fun _ hreq => nomatch hreq⟩

/-- The paths that are allowed in a container. -/
def allowedIn (s : ProposalRun ν) (c : ContainerName) : List Bytes :=
  ((storedValue s.proposal).rulesOf c).allowed

/-- A path that the step adds is the executable of a non-foreign event, which is being written. -/
def AddsNonForeign (s : ProposalRun ν) (op : ProposalOp ν) : Prop :=
  ∀ c path, path ∈ (s.step op).allowedIn c → path ∉ s.allowedIn c →
    ∃ agent answer req write, op = .agent agent (.write answer) ∧
      s.agents agent = .writing req write ∧ req.foreignRoot = false ∧ req.containerName = c ∧
      req.executablePath = path

theorem Learning.addsNonForeign (h : s.Learning) (hop : OnlyLearning op) : AddsNonForeign s op := by
  intro c path hnew hold
  rcases (step_effect h.sound op).learning hop with heq | ⟨agent, req, write, answer, v, hop', hst,
    hv, heq⟩
  · rw [allowedIn, heq] at hnew
    exact absurd hnew hold
  · have hstored : storedValue (s.step op).proposal = mutate req (storedValue s.proposal) := by
      rw [heq, ← hv.value]
      rfl
    rw [allowedIn, hstored] at hnew
    obtain ⟨hforeign, hc, hpath⟩ := mutate_adds hnew hold
    exact ⟨agent, answer, req, write, hop', hst, hforeign, hc, hpath⟩

/-- **Concurrent learning loses and duplicates nothing**: in every interleaving the lists have no
duplicates and at most a hundred paths in all, every version grows into the stored one, and a path
is only added by a non-foreign event. From an absent or unlabelled proposal, what an agent has
reported as learned is in the stored list, or the stored proposal is full. -/
theorem learning_sound (key : ObjectMeta) (proposal : Option WorkloadPolicyProposal)
    (policies : GoMap String PromotedPolicy) {ops : List (ProposalOp ν)}
    (hstart : ∀ p, proposal = some p → p.getExecutablesLength = 0)
    (hops : ∀ op ∈ ops, OnlyLearning op ∧ ¬ Rejected op) :
    let s₀ : ProposalRun ν := ProposalRun.start key proposal policies
    let s := run step ops s₀
    (∀ cur, s.proposal.current = some cur → cur.value.Tidy) ∧
      (∀ n v, (run step (ops.take n) s₀).proposal.current = some v →
        ∃ cur, s.proposal.current = some cur ∧ v.value.Grows cur.value) ∧
      Along step AddsNonForeign ops s₀ ∧
      ((∀ p, proposal = some p → p.hasPromotionLabel = none) →
        ∀ req, (req, Outcome.learned) ∈ s.results → req.foreignRoot = false →
          ∃ cur, s.proposal.current = some cur ∧
            (req.executablePath ∈ (cur.value.rulesOf req.containerName).allowed ∨
              cur.value.isFull = true)) := by
  intro s₀ s
  have hkeep : ∀ (s : ProposalRun ν) op, s.Learning → OnlyLearning op ∧ ¬ Rejected op →
      (s.step op).Learning := fun s op h hop => h.step hop.1 hop.2
  have halong : Along step (fun _ op => OnlyLearning op ∧ ¬ Rejected op) ops s₀ :=
    along_of_forall hops
  have hend : s.Learning := run_inv hkeep (.start hstart) halong
  refine ⟨fun cur hc => hend.growing.tidy cur (hc ▸ s.proposal.current_mem), ?_, ?_, ?_⟩
  · intro n v hv
    -- the version is still in the history at the end, and has grown into what is stored then
    have hbefore : (run step (ops.take n) s₀).Learning := run_inv hkeep (.start hstart)
      (along_of_forall fun op hop => hops op (List.mem_of_mem_take hop))
    have hmem := hbefore.sound.mem_run (hv ▸ Slot.current_mem _) (ops.drop n)
    rw [← run_append, List.take_append_drop] at hmem
    obtain ⟨cur, hc, hg, -⟩ := hend.growing.grows v hmem
    exact ⟨cur, hc, hg⟩
  · exact along_of_inv hkeep (fun s op h hop => h.addsNonForeign hop.1) (.start hstart) halong
  · intro hlabel req hreq hforeign
    have hplain : Unlabelled s.proposal := by
      refine (run_inv (I := fun s : ProposalRun ν => s.Sound ∧ Unlabelled s.proposal)
        (fun s op h hop => ?_) ⟨Sound.start key proposal policies, .start hlabel⟩ halong).2
      have he := step_effect h.1 op
      exact ⟨he.sound h.1, he.unlabelled hop.1 h.2⟩
    obtain ⟨cur, hc, hhas⟩ := hend.learned req hreq hforeign
    exact ⟨cur, hc, hhas (hplain cur (hc ▸ s.proposal.current_mem))⟩

namespace Sample

/-- Both agents find no proposal, and both try to create it; the second one tries again. -/
def race : List (ProposalOp Bool) :=
  [.agent false (.receive (exec [1]) (.found true)),
    .agent true (.receive (exec [2]) (.found true)),
    .agent false (.get (.behind 0)), .agent true (.get (.behind 0)),
    .agent false (.listPolicies (.behind 0)), .agent true (.listPolicies (.behind 0)),
    .agent false (.getAgain (.behind 0)), .agent true (.getAgain (.behind 0)),
    .agent false (.write .answered), .agent true (.write .answered),
    .agent true (.receive (exec [2]) (.found true)), .agent true (.get (.behind 0)),
    .agent true (.getAgain (.behind 0)), .agent true (.write .answered)]

def afterRace : ProposalRun Bool := run step race (ProposalRun.start key none ∅)

theorem race_learned :
    (afterRace.results.map Prod.snd = [.learned, .requeued, .learned] ∧
      afterRace.allowedIn "nginx" = [[1], [2]]) ∧
    ∃ cur, afterRace.proposal.current = some cur ∧ cur.value.Tidy ∧
      ([2] ∈ (cur.value.rulesOf "nginx").allowed ∨ cur.value.isFull = true) := by
  have hops : ∀ op ∈ race, OnlyLearning op ∧ ¬ Rejected op := by
    simp [race, OnlyLearning, Rejected]
  obtain ⟨htidy, -, -, hlearned⟩ := learning_sound key none ∅ (by simp) hops
  obtain ⟨cur, hc, hhas⟩ := hlearned (by simp) (exec [2]) (by decide +kernel) rfl
  exact ⟨⟨by decide +kernel, by decide +kernel⟩, cur, hc, htidy cur hc, hhas⟩

end Sample

end ProposalRun

end RuntimeEnforcer.Api
