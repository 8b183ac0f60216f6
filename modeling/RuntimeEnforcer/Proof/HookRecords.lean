import RuntimeEnforcer.Proof.EventCodec

/-!
# What a record of the hook says

A learning record is made for a cgroup without a policy, a violation record for one that has a
policy with settings. Whatever else the exec is and whatever the per-CPU buffer held, both carry the
cgroup, the mode and the foreign flag, and userspace reads them back or skips the record.
-/

set_option autoImplicit false

namespace RuntimeEnforcer.Hook

open Lib

/-- The fields before the path are those of the exec. -/
structure Describes (x : Exec) (maps : BpfMaps) (mode : UInt8) (evt : ProcessEvt) : Prop where
  cgTrackerId : evt.cgTrackerId = getTrackerIdFromCurrTask maps x
  pathLen : evt.pathLen < 2 ^ 16
  mode : evt.mode = mode
  foreign : evt.foreign = if execIsForeignRoot x then 1 else 0

/-- The record is one of the exec's. -/
def RecordOf (x : Exec) (maps : BpfMaps) (mode : UInt8) (r : Bytes) : Prop :=
  ∃ evt n, r = evtRecord evt n ∧ 12 < n ∧ Describes x maps mode evt

section

variable {x : Exec} {maps : BpfMaps} {evt : ProcessEvt} {r : Bytes} {id : PolicyID} {off : Nat}

theorem populateEvtWithPath_keeps {evt' : ProcessEvt} {logs : List LogEvent}
    (hpop : populateEvtWithPath x evt = (off, evt', logs)) (hoff : off ≠ 0) :
    evt'.cgTrackerId = evt.cgTrackerId ∧ evt'.mode = evt.mode ∧ evt'.foreign = evt.foreign ∧
      evt'.pathLen < 2 ^ 16 := by
  unfold populateEvtWithPath at hpop
  cases hfile : x.file with
  | none =>
    simp only [hfile, Prod.mk.injEq] at hpop
    exact absurd hpop.1.symm hoff
  | some file =>
    simp only [hfile] at hpop
    repeat' split at hpop
    all_goals obtain ⟨rfl, rfl, rfl⟩ := by simpa only [Prod.mk.injEq] using hpop
    · exact absurd rfl hoff
    · exact absurd rfl hoff
    · exact absurd rfl hoff
    · exact ⟨rfl, rfl, rfl, Nat.mod_lt _ (by decide)⟩

theorem reportViolation_execve (st : PolicySettings) :
    (reportViolation x id st evt).execve = none := by
  unfold reportViolation
  simp only
  split <;> rfl

theorem reportViolation_monitoring {st : PolicySettings}
    (h : (reportViolation x id st evt).monitoring = some r) :
    r = evtRecord { evt with mode := st.mode } (19 + safePathLen evt.pathLen) := by
  unfold reportViolation at h
  simp only at h
  split at h
  · exact (Option.some.inj h).symm
  · exact absurd h (by simp)

theorem judgeForeign_execve : (judgeForeign x maps id off evt).execve = none := by
  unfold judgeForeign
  cases maps.policySettings id with
  | none => rfl
  | some st =>
    simp only
    split
    · rfl
    · split
      · rfl
      · exact reportViolation_execve st

theorem judgeListed_execve : (judgeListed x maps id off evt).execve = none := by
  unfold judgeListed
  split
  · rfl
  · simp only
    split
    · rfl
    · split
      · rfl
      · cases maps.policySettings id with
        | none => rfl
        | some st => exact reportViolation_execve st

theorem judgeForeign_monitoring (h : (judgeForeign x maps id off evt).monitoring = some r) :
    ∃ st, maps.policySettings id = some st ∧
      r = evtRecord { copyExecPath evt off with mode := st.mode }
        (19 + safePathLen evt.pathLen) := by
  unfold judgeForeign at h
  cases hst : maps.policySettings id with
  | none => simp [hst] at h
  | some st =>
    simp only [hst] at h
    split at h
    · exact absurd h (by simp)
    · split at h
      · exact absurd h (by simp)
      · exact ⟨st, rfl, reportViolation_monitoring h⟩

theorem judgeListed_monitoring (h : (judgeListed x maps id off evt).monitoring = some r) :
    ∃ st, maps.policySettings id = some st ∧
      r = evtRecord { copyExecPath evt off with mode := st.mode }
        (19 + safePathLen evt.pathLen) := by
  unfold judgeListed at h
  split at h
  · exact absurd h (by simp)
  · simp only at h
    split at h
    · exact absurd h (by simp)
    · split at h
      · exact absurd h (by simp)
      · cases hst : maps.policySettings id with
        | none => simp [hst] at h
        | some st =>
          simp only [hst] at h
          exact ⟨st, rfl, reportViolation_monitoring h⟩

/-- Learning writes to the other ring buffer. -/
theorem reportLearning_monitoring (cg : CgroupID) (foreign : Bool) :
    (reportLearning x cg foreign evt).monitoring = none := by
  unfold reportLearning
  simp only
  repeat' split
  all_goals rfl

theorem describes_populated {evt₀ evt' : ProcessEvt} {logs : List LogEvent} {mode : UInt8}
    (hpop : populateEvtWithPath x evt₀ = (off, evt', logs)) (hoff : off ≠ 0)
    (hcg : evt₀.cgTrackerId = getTrackerIdFromCurrTask maps x) (hmode : evt₀.mode = mode)
    (hforeign : evt₀.foreign = if execIsForeignRoot x then 1 else 0) :
    Describes x maps mode (copyExecPath evt' off) := by
  obtain ⟨h₁, h₂, h₃, h₄⟩ := populateEvtWithPath_keeps hpop hoff
  exact ⟨h₁.trans hcg, h₄, h₂.trans hmode, h₃.trans hforeign⟩

theorem enforceCgroupPolicy_cases (x : Exec) (maps : BpfMaps) (evt : ProcessEvt) :
    ((enforceCgroupPolicy x maps evt).execve = none ∧
      (enforceCgroupPolicy x maps evt).monitoring = none) ∨
    (maps.cgToPolicy.lookup (getTrackerIdFromCurrTask maps x) = none ∧
      enforceCgroupPolicy x maps evt
        = reportLearning x (getTrackerIdFromCurrTask maps x) (execIsForeignRoot x) evt) ∨
    ∃ id, Judged x maps id := by
  by_cases htracked : getTrackerIdFromCurrTask maps x = 0
  · left
    unfold enforceCgroupPolicy
    simp [htracked]
  cases hboot : execIsRuntimeBootstrap maps x (getTrackerIdFromCurrTask maps x) with
  | true =>
    left
    unfold enforceCgroupPolicy
    simp [htracked, hboot]
  | false =>
    cases hid : maps.cgToPolicy.lookup (getTrackerIdFromCurrTask maps x) with
    | none =>
      right; left
      refine ⟨rfl, ?_⟩
      unfold enforceCgroupPolicy
      simp [htracked, hboot, hid]
    | some id =>
      cases hevt : x.probes.evtLookup with
      | false =>
        left
        unfold enforceCgroupPolicy
        simp [htracked, hboot, hid, hevt]
      | true => exact .inr (.inr ⟨id, htracked, hid, hboot, hevt⟩)

/-- **A violation record** is made under a policy, with the mode of its settings. -/
theorem monitoring_recordOf (h : (enforceCgroupPolicy x maps evt).monitoring = some r) :
    ∃ id st, maps.cgToPolicy.lookup (getTrackerIdFromCurrTask maps x) = some id ∧
      maps.policySettings id = some st ∧ RecordOf x maps st.mode r := by
  rcases enforceCgroupPolicy_cases x maps evt with ⟨_, hnone⟩ | ⟨_, hlearn⟩ | ⟨id, hj⟩
  · exact absurd (hnone.symm.trans h) (by simp)
  · rw [hlearn, reportLearning_monitoring] at h
    exact absurd h (by simp)
  · rcases hpop : populateEvtWithPath x (startEvt x maps evt) with ⟨off, evt', logs⟩
    rw [enforceCgroupPolicy_judged hj hpop] at h
    split at h
    · exact absurd h (by simp)
    · next hoff =>
      have hd : Describes x maps evt.mode (copyExecPath evt' off) :=
        describes_populated hpop hoff rfl rfl rfl
      split at h
      · obtain ⟨st, hst, hr⟩ := judgeForeign_monitoring h
        exact ⟨id, st, hj.bound, hst, _, _, hr, by omega,
          hd.cgTrackerId, hd.pathLen, rfl, hd.foreign⟩
      · obtain ⟨st, hst, hr⟩ := judgeListed_monitoring h
        exact ⟨id, st, hj.bound, hst, _, _, hr, by omega,
          hd.cgTrackerId, hd.pathLen, rfl, hd.foreign⟩

theorem reportLearning_recordOf
    (h : (reportLearning x (getTrackerIdFromCurrTask maps x) (execIsForeignRoot x) evt).execve
      = some r) : RecordOf x maps 0 r := by
  unfold reportLearning at h
  split at h
  · exact absurd h (by simp)
  split at h
  · exact absurd h (by simp)
  cases hforeign : execIsForeignRoot x with
  | true =>
    simp only [hforeign, if_true] at h
    split at h
    · exact ⟨_, _, (Option.some.inj h).symm, by omega,
        rfl, by show 0 < 2 ^ 16; decide, rfl, by rw [hforeign]; rfl⟩
    · exact absurd h (by simp)
  | false =>
    simp only [hforeign, Bool.false_eq_true, if_false] at h
    rcases hpop : populateEvtWithPath x { evt with
      cgTrackerId := getTrackerIdFromCurrTask maps x, mode := 0, foreign := 0 } with
      ⟨off, evt', logs⟩
    simp only [hpop] at h
    split at h
    · exact absurd h (by simp)
    · next hoff =>
      split at h
      · exact absurd h (by simp)
      · split at h
        · exact ⟨_, _, (Option.some.inj h).symm, by omega,
            describes_populated hpop hoff rfl rfl (by rw [hforeign]; rfl)⟩
        · exact absurd h (by simp)

/-- **A learning record** is made without a policy, and with no mode. -/
theorem execve_recordOf (h : (enforceCgroupPolicy x maps evt).execve = some r) :
    maps.cgToPolicy.lookup (getTrackerIdFromCurrTask maps x) = none ∧ RecordOf x maps 0 r := by
  rcases enforceCgroupPolicy_cases x maps evt with ⟨hnone, _⟩ | ⟨hid, hlearn⟩ | ⟨id, hj⟩
  · exact absurd (hnone.symm.trans h) (by simp)
  · rw [hlearn] at h
    exact ⟨hid, reportLearning_recordOf h⟩
  · rcases hpop : populateEvtWithPath x (startEvt x maps evt) with ⟨off, evt', logs⟩
    rw [enforceCgroupPolicy_judged hj hpop] at h
    split at h
    · exact absurd h (by simp)
    · split at h
      · exact absurd (judgeForeign_execve.symm.trans h) (by simp)
      · exact absurd (judgeListed_execve.symm.trans h) (by simp)

/-- **What userspace makes of a record**: an event of the exec's cgroup, or nothing. -/
theorem RecordOf.decode {mode : UInt8} {text : String} (h : RecordOf x maps mode r)
    (htid : getTrackerIdFromCurrTask maps x < 2 ^ 64)
    (hm : mode = 0 ∧ text = "" ∨ ∃ m : Mode, Mode.fromUint8 mode = some m ∧ text = m.string) :
    (∃ reason, processRingbufEvent r = .skipped reason) ∨
    ∃ path, processRingbufEvent r = .event
      ⟨getTrackerIdFromCurrTask maps x, path, text, execIsForeignRoot x⟩ := by
  obtain ⟨evt, n, rfl, hn, hd⟩ := h
  by_cases hlen : evt.pathLen ≤ 4096
  · right
    have hforeign : decide (evt.foreign ≠ 0) = execIsForeignRoot x := by
      rw [hd.foreign]
      cases execIsForeignRoot x <;> rfl
    rw [processRingbufEvent_evtRecord (hd.cgTrackerId ▸ htid) hlen hn (hd.mode ▸ hm), hforeign,
      hd.cgTrackerId]
    exact ⟨_, rfl⟩
  · left
    unfold processRingbufEvent
    rw [readHeader_evtRecord (hd.cgTrackerId ▸ htid) hd.pathLen]
    exact ⟨_, if_pos (Nat.not_le.mp hlen)⟩

end

end RuntimeEnforcer.Hook
