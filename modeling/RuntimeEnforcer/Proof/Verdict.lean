import RuntimeEnforcer.Proof.Bypass
import RuntimeEnforcer.Proof.AllowList

/-!
# What a verdict depends on

Userspace changes the maps while the hook runs, so the hook may judge the same exec over many
states of the maps. Almost everything it does is the same in all of them: whose task it is, whether
the exec is the runtime's own, the path. `Manner` is what is left to compare with the policy, and
`ret_enforceCgroupPolicy` is the verdict as a function of the manner, the binding, the settings and
one string map.
-/

set_option autoImplicit false

namespace RuntimeEnforcer.Hook

open Lib

/-- How an exec is judged, whatever its policy says: nothing is compared, and it passes; or by the
opt-out for foreign roots; or by the key that starts at `pos` in `buf`, in the string map
`index`. -/
inductive Manner
  | passes
  | foreign
  | listed (index : Int) (buf : Buffer) (pos : Nat)

def manner (x : Exec) (maps : BpfMaps) (evt : ProcessEvt) : Manner :=
  let cg := getTrackerIdFromCurrTask maps x
  if cg = 0 then .passes
  else if execIsRuntimeBootstrap maps x cg then .passes
  else if !x.probes.evtLookup || !x.probes.copyRead then .passes
  else
    let (off, evt, _) := populateEvtWithPath x evt
    if off = 0 then .passes
    else if execIsForeignRoot x then .foreign
    else if x.linuxKernelVersion < kernelVersion 5 11 0 ∧ evt.pathLen > stringMapSize7 then .passes
    else .listed (stringMapIndex (stringPaddedLen evt.pathLen)) evt.path (safePathAccess off)

/-- Policy `id`, with the settings `st`, does not let the exec through. -/
def Manner.Refused (maps : BpfMaps) (id : PolicyID) (st : PolicySettings) : Manner → Prop
  | .passes => False
  | .foreign => st.allowForeignRoot = 0
  | .listed index buf pos => stringMapLookup maps index id buf pos = false

/-- The policy `cg` is bound to protects, and does not let the exec through. -/
def Manner.Denied (f : Manner) (maps : BpfMaps) (cg : CgroupID) : Prop :=
  ∃ id st, maps.cgToPolicy.lookup cg = some id ∧ maps.policySettings id = some st ∧
    st.mode ≠ policyModeMonitor ∧ f.Refused maps id st

/-- The verdict `ret` is that of the policy. -/
def Answers (f : Manner) (maps : BpfMaps) (cg : CgroupID) (ret : Int) : Prop :=
  f.Denied maps cg ∧ ret = -eperm ∨ ¬ f.Denied maps cg ∧ ret = 0

/-! ## The verdict -/

section

variable {x : Exec} {maps m₀ m : BpfMaps} {id : PolicyID} {st : PolicySettings} {cg : CgroupID}
  {evt : ProcessEvt} {f : Manner}

theorem Manner.not_denied_of_unbound (h : maps.cgToPolicy.lookup cg = none) :
    ¬ f.Denied maps cg := by
  rintro ⟨id, _, hid, _⟩
  exact absurd hid (by simp [h])

theorem Manner.denied_iff_of_bound (hid : maps.cgToPolicy.lookup cg = some id)
    (hst : maps.policySettings id = some st) :
    f.Denied maps cg ↔ st.mode ≠ policyModeMonitor ∧ f.Refused maps id st := by
  constructor
  · rintro ⟨id', st', hid', hst', h⟩
    obtain rfl : id = id' := Option.some.inj (hid.symm.trans hid')
    obtain rfl : st = st' := Option.some.inj (hst.symm.trans hst')
    exact h
  · intro h
    exact ⟨id, st, hid, hst, h⟩

theorem Manner.not_denied_of_no_settings (hid : maps.cgToPolicy.lookup cg = some id)
    (hst : maps.policySettings id = none) : ¬ f.Denied maps cg := by
  rintro ⟨id', st, hid', hst', _⟩
  obtain rfl : id = id' := Option.some.inj (hid.symm.trans hid')
  exact absurd hst' (by simp [hst])

theorem Manner.not_denied_passes : ¬ Manner.passes.Denied maps cg := fun ⟨_, _, _, _, _, h⟩ => h

theorem populateEvtWithPath_startEvt (x : Exec) (maps : BpfMaps) (evt : ProcessEvt) :
    populateEvtWithPath x (startEvt x maps evt) =
      ((populateEvtWithPath x evt).1, startEvt x maps (populateEvtWithPath x evt).2.1,
        (populateEvtWithPath x evt).2.2) := by
  unfold populateEvtWithPath startEvt
  cases x.file with
  | none => rfl
  | some file =>
    dsimp only
    split_ifs <;> rfl

theorem ret_reportLearning (x : Exec) (cg : CgroupID) (foreign : Bool) (evt : ProcessEvt) :
    (reportLearning x cg foreign evt).ret = 0 := by
  unfold reportLearning
  dsimp only
  split_ifs <;> rfl

theorem ret_judgeForeign_eq_zero (h : maps.policySettings id = none ∨ x.probes.copyRead = false)
    (off : Nat) (evt : ProcessEvt) : (judgeForeign x maps id off evt).ret = 0 := by
  unfold judgeForeign
  cases hst : maps.policySettings id with
  | none => rfl
  | some st =>
    have hcopy : x.probes.copyRead = false := h.resolve_left (by simp [hst])
    simp only [hcopy, Bool.not_false, if_true]
    split_ifs <;> rfl

theorem ret_judgeListed_eq_zero (h : maps.policySettings id = none ∨ x.probes.copyRead = false)
    (off : Nat) (evt : ProcessEvt) : (judgeListed x maps id off evt).ret = 0 := by
  unfold judgeListed
  rcases h with h | h
  · simp only [h]
    split_ifs <;> rfl
  · simp only [h, Bool.not_false, if_true]
    split_ifs <;> rfl

theorem answers_passes : Answers .passes maps cg 0 := .inr ⟨Manner.not_denied_passes, rfl⟩

theorem answers_judgeForeign (hid : maps.cgToPolicy.lookup cg = some id)
    (hcopy : x.probes.copyRead = true) (off : Nat) (evt : ProcessEvt) :
    Answers .foreign maps cg (judgeForeign x maps id off evt).ret := by
  cases hst : maps.policySettings id with
  | none =>
    exact .inr ⟨Manner.not_denied_of_no_settings hid hst, ret_judgeForeign_eq_zero (.inl hst) _ _⟩
  | some st =>
    unfold Answers
    rw [ret_judgeForeign hst hcopy, Manner.denied_iff_of_bound hid hst]
    split_ifs with hor
    · exact .inr ⟨fun h => hor.elim (fun ha => ha h.2) h.1, rfl⟩
    · obtain ⟨hallow, hmode⟩ := not_or.mp hor
      exact .inl ⟨⟨hmode, not_not.mp hallow⟩, rfl⟩

theorem answers_judgeListed (hid : maps.cgToPolicy.lookup cg = some id)
    (hcopy : x.probes.copyRead = true) (off : Nat) (evt : ProcessEvt)
    (hver : ¬ (x.linuxKernelVersion < kernelVersion 5 11 0 ∧ evt.pathLen > stringMapSize7)) :
    Answers (.listed (stringMapIndex (stringPaddedLen evt.pathLen)) evt.path (safePathAccess off))
      maps cg (judgeListed x maps id off evt).ret := by
  cases hst : maps.policySettings id with
  | none =>
    exact .inr ⟨Manner.not_denied_of_no_settings hid hst, ret_judgeListed_eq_zero (.inl hst) _ _⟩
  | some st =>
    unfold Answers
    rw [ret_judgeListed hst hcopy off hver, Manner.denied_iff_of_bound hid hst]
    split_ifs with hor
    · refine .inr ⟨fun h => hor.elim (fun hfound => ?_) h.1, rfl⟩
      exact absurd (hfound.symm.trans h.2) (by simp)
    · obtain ⟨hfound, hmode⟩ := not_or.mp hor
      exact .inl ⟨⟨hmode, eq_false_of_ne_true hfound⟩, rfl⟩

/-- **The verdict.** -/
theorem answers_enforceCgroupPolicy (x : Exec) (maps : BpfMaps) (evt : ProcessEvt) :
    Answers (manner x maps evt) maps (getTrackerIdFromCurrTask maps x)
      (enforceCgroupPolicy x maps evt).ret := by
  by_cases htr : getTrackerIdFromCurrTask maps x = 0
  · simp only [manner, enforceCgroupPolicy, htr, if_true]
    exact answers_passes
  cases hboot : execIsRuntimeBootstrap maps x (getTrackerIdFromCurrTask maps x) with
  | true =>
    simp only [manner, enforceCgroupPolicy, if_neg htr, hboot, if_true]
    exact answers_passes
  | false =>
    cases hid : maps.cgToPolicy.lookup (getTrackerIdFromCurrTask maps x) with
    | none =>
      refine .inr ⟨Manner.not_denied_of_unbound hid, ?_⟩
      simp [enforceCgroupPolicy, htr, hboot, hid, ret_reportLearning]
    | some id =>
      cases hevt : x.probes.evtLookup with
      | false =>
        simp only [manner, enforceCgroupPolicy, if_neg htr, hboot, hid, hevt, Bool.not_false,
          Bool.true_or, Bool.false_eq_true, if_true, if_false]
        exact answers_passes
      | true =>
        rw [enforceCgroupPolicy_judged ⟨htr, hid, hboot, hevt⟩
          (populateEvtWithPath_startEvt x maps evt)]
        simp only [manner, if_neg htr, hboot, hevt, Bool.false_eq_true, if_false, Bool.not_true,
          Bool.false_or]
        -- the branches of the hook, in its own order
        cases hcopy : x.probes.copyRead with
        | false =>
          simp only [Bool.not_false, if_true]
          split_ifs
          · exact answers_passes
          · rw [ret_judgeForeign_eq_zero (.inr hcopy)]
            exact answers_passes
          · rw [ret_judgeListed_eq_zero (.inr hcopy)]
            exact answers_passes
        | true =>
          simp only [Bool.not_true, Bool.false_eq_true, if_false]
          split_ifs with _ _ hlong
          · exact answers_passes
          · exact answers_judgeForeign hid hcopy _ _
          · rw [judgeListed, if_pos (show _ ∧ (startEvt x maps _).pathLen > _ from hlong)]
            exact answers_passes
          · exact answers_judgeListed hid hcopy _ (startEvt x maps _) hlong

theorem Answers.denied_iff {ret : Int} (h : Answers f maps cg ret) :
    ret = -eperm ↔ f.Denied maps cg := by
  rcases h with ⟨hd, rfl⟩ | ⟨hd, rfl⟩
  · exact iff_of_true rfl hd
  · exact iff_of_false (by decide) hd

theorem Answers.allowed_iff {ret : Int} (h : Answers f maps cg ret) :
    ret = 0 ↔ ¬ f.Denied maps cg := by
  rcases h with ⟨hd, rfl⟩ | ⟨hd, rfl⟩
  · exact iff_of_false (by decide) (not_not.mpr hd)
  · exact iff_of_true rfl hd

/-! ## Over other maps, and in another container -/

theorem getTrackerIdFromTask_congr (h : m.cgtracker = m₀.cgtracker) (conf : LoadConf)
    (css : Option CssSet) : getTrackerIdFromTask m conf css = getTrackerIdFromTask m₀ conf css := by
  unfold getTrackerIdFromTask cgrpGetTrackerId
  rw [h]

theorem getTrackerIdFromCurrTask_congr (h : m.cgtracker = m₀.cgtracker) (x : Exec) :
    getTrackerIdFromCurrTask m x = getTrackerIdFromCurrTask m₀ x :=
  getTrackerIdFromTask_congr h _ _

theorem manner_congr (h : m.cgtracker = m₀.cgtracker) (x : Exec) (evt : ProcessEvt) :
    manner x m evt = manner x m₀ evt := by
  unfold manner execIsRuntimeBootstrap
  simp only [getTrackerIdFromCurrTask_congr h, getTrackerIdFromTask_congr h]

/-- The same exec by a task of cgroup `cg`, as its parent is. -/
def Exec.inCgroup (x : Exec) (cg : CgroupID) : Exec :=
  let css : CssSet := { dflCgrp := cg, subsys := fun _ => cg }
  { x with task := { x.task with cgroups := some css, realParent := some (some css) } }

theorem getTrackerIdFromCurrTask_inCgroup {t : CgroupID} (hx : getTrackerIdFromCurrTask maps x ≠ 0)
    (hcg : cg ≠ 0) (ht : maps.cgtracker cg = some t) :
    getTrackerIdFromCurrTask maps (x.inCgroup cg) = t := by
  have hconf : x.conf.cgrpFsMagic = cgroup2SuperMagic ∨ ¬ x.conf.cgrpv1SubsysIdx > pidsCgrpId := by
    by_contra hno
    obtain ⟨h₁, h₂⟩ := not_or.mp hno
    refine hx ?_
    unfold getTrackerIdFromCurrTask getTrackerIdFromTask getTaskCgroup
    cases x.task.cgroups with
    | none => rfl
    | some css => simp [h₁, not_not.mp h₂]
  have htask : getTaskCgroup (x.inCgroup cg).task.cgroups x.conf.cgrpFsMagic x.conf.cgrpv1SubsysIdx
      = cg := by
    simp only [getTaskCgroup, Exec.inCgroup]
    rcases hconf with h | h
    · rw [if_pos h]
    · simp [h]
  show getTrackerIdFromTask maps x.conf _ = t
  unfold getTrackerIdFromTask
  rw [htask, if_neg hcg, cgrpGetTrackerId, ht]
  rfl

theorem manner_inCgroup {t : CgroupID} (hx : manner x maps evt ≠ .passes) (hcg : cg ≠ 0)
    (ht : maps.cgtracker cg = some t) (ht₀ : t ≠ 0) :
    manner (x.inCgroup cg) maps evt = manner x maps evt := by
  have htr : getTrackerIdFromCurrTask maps x ≠ 0 := fun h => hx (by simp [manner, h])
  have hboot : execIsRuntimeBootstrap maps x (getTrackerIdFromCurrTask maps x) = false :=
    eq_false_of_ne_true fun h => hx (by simp [manner, h])
  have htr' := getTrackerIdFromCurrTask_inCgroup htr hcg ht
  have hboot' : execIsRuntimeBootstrap maps (x.inCgroup cg) t = false := by
    have hparent :
        getTrackerIdFromTask maps (x.inCgroup cg).conf (x.inCgroup cg).task.cgroups = t :=
      htr'
    unfold execIsRuntimeBootstrap
    split_ifs
    · rfl
    · rfl
    · show decide (getTrackerIdFromTask maps _ (x.inCgroup cg).task.cgroups ≠ t) = false
      simp [hparent]
  unfold manner
  simp only [htr', hboot', if_neg ht₀, htr, hboot, Bool.false_eq_true, if_false]
  rfl

end

/-! ## One string map -/

section

variable {m₀ m : BpfMaps} {id : PolicyID} {index : Int} {buf : Buffer} {pos : Nat}

theorem stringMapLookup_congr_maps
    (h : ∀ i, outerMap index = some i → m.polStrMaps i id = m₀.polStrMaps i id) :
    stringMapLookup m index id buf pos = stringMapLookup m₀ index id buf pos := by
  unfold stringMapLookup
  cases hi : outerMap index with
  | none => rfl
  | some i => simp only [h i hi]

end

end RuntimeEnforcer.Hook
