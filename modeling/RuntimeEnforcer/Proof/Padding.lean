import RuntimeEnforcer.Lib.Run
import RuntimeEnforcer.Proof.EventCodec

/-!
# The third segment

The comparison of every exec on a CPU reads padding from the third segment of `process_evt`,
which is never cleared: it starts zeroed and is to stay so. The walk masks its offset with two
segments, so the *start* of every write is in front of the third; its end is not, when a component
is written across a multiple of 8192 bytes (`Straddles`).

The hook writes nowhere else near it (`path_enforceCgroupPolicy`), so an exec keeps the third
segment clean whenever its walk lays no straddling component (`Clean.step`), and a run of execs
does when each of them does (`clean_run`).
-/

set_option autoImplicit false

namespace RuntimeEnforcer.Hook

open Lib

/-- All bytes of the third segment are NUL. -/
def Clean (evt : ProcessEvt) : Prop := ∀ i, 8192 ≤ i → i < 12288 → evt.path i = 0

/-- The component `name`, laid in front of `off`, crosses a multiple of 8192: it ends `off % 8192`
bytes behind one, and is longer than that. -/
def Straddles (off : Nat) (name : Bytes) : Prop := 0 < off % 8192 ∧ off % 8192 < name.length

/-- None of the components laid in front of `off` straddles. -/
def Tidy : Nat → List Bytes → Prop
  | _, [] => True
  | off, name :: names => ¬ Straddles off name ∧ Tidy (u32Sub off (name.length + 1)) names

/-! ## What the walk writes -/

variable {off i : Nat} {buf : Buffer} {names : List Bytes}

theorem layName_end {name : Bytes} (hn : NameOk name) (h : ¬ Straddles off name) :
    safePathAccess ((u32Sub off (name.length + 1) + 1) % 2 ^ 32) + name.length ≤ 8192 := by
  have h₁ := hn.2
  rw [safePathAccess_eq]
  unfold Straddles at h
  unfold u32Sub
  omega

theorem layName_third {name : Bytes} (hn : NameOk name) (h : ¬ Straddles off name) (hi : 8192 ≤ i) :
    (layName buf off name).1 i = buf i := by
  have hend := layName_end hn h
  have htake : (name.take (safeComponentAccess name.length)).length ≤ name.length :=
    List.length_take_le' _ _
  have hslash : safePathAccess (u32Sub off (name.length + 1)) < 8192 := by
    rw [safePathAccess_eq]; omega
  unfold layName
  simp only
  rw [Buffer.write_above (by omega), Buffer.write_above (by simp; omega)]

theorem layNames_third (hn : ∀ name ∈ names, NameOk name) (h : Tidy off names) (hi : 8192 ≤ i) :
    (layNames names buf off).1 i = buf i := by
  induction names generalizing buf off with
  | nil => rfl
  | cons name names ih =>
    rw [layNames, layName_off, ih (fun n hm => hn n (List.mem_cons_of_mem _ hm)) h.2,
      layName_third (hn name (by simp)) h.1 hi]

theorem tidy_of_fits (h₁ : namesLen names ≤ off) (h₂ : off ≤ 8192) : Tidy off names := by
  induction names generalizing off with
  | nil => trivial
  | cons name names ih =>
    simp only [namesLen] at h₁
    refine ⟨fun hs => ?_, ih ?_ ?_⟩
    · unfold Straddles at hs
      omega
    · rw [u32Sub_of_le (by omega) (by omega)]
      omega
    · rw [u32Sub_of_le (by omega) (by omega)]
      omega

theorem startBuf_third (k : KMem) (dentry : Addr) (buf : Buffer) (hi : 8192 ≤ i) :
    startBuf k dentry buf i = buf i := by
  unfold startBuf
  split
  · exact Buffer.write_above (by rw [safePathAccess_eq]; simpa [maxPathLen, deletedString] using hi)
  · rfl

/-- The names of the walk are tidy, so all that is laid is: the name of a memfd ends where the
third segment starts. -/
theorem tidy_laidNames {k : KMem} {dentry d : Addr} (h : Tidy (startOff k dentry) names) :
    Tidy (startOff k dentry) (laidNames k dentry names d) := by
  unfold laidNames
  split
  case isTrue hmemfd =>
    refine ⟨fun hs => ?_, trivial⟩
    rw [startOff_eq, hmemfd.1] at hs
    exact absurd hs.1 (by decide)
  case isFalse => exact h

/-! ## What the hook writes -/

def walks (x : Exec) (maps : BpfMaps) : Bool :=
  getTrackerIdFromCurrTask maps x ≠ 0 &&
  !execIsRuntimeBootstrap maps x (getTrackerIdFromCurrTask maps x) &&
  x.probes.evtLookup &&
  ((maps.cgToPolicy.lookup (getTrackerIdFromCurrTask maps x)).isSome ||
    x.conf.learningEnabled && !execIsForeignRoot x)

/-- The buffer the walk leaves, when there is a walk. -/
def walked (x : Exec) (buf : Buffer) : Buffer :=
  match x.file with
  | none => buf
  | some file =>
    if x.probes.dentryRead then
      (bpfDPathApprox x.mem x.iterNum x.task.fs file.dentry file.mnt buf).2
    else buf

theorem path_populateEvtWithPath (x : Exec) (evt : ProcessEvt) :
    (populateEvtWithPath x evt).2.1.path = walked x evt.path := by
  unfold populateEvtWithPath walked
  cases x.file with
  | none => rfl
  | some file =>
    cases x.probes.dentryRead with
    | false => rfl
    | true =>
      simp only [Bool.not_true, Bool.false_eq_true, if_false, if_true]
      split_ifs <;> rfl

section

variable {x : Exec} {maps : BpfMaps} {i : Nat}

theorem path_copyExecPath (evt : ProcessEvt) (off : Nat) (hi : 4096 ≤ i) :
    (copyExecPath evt off).path i = evt.path i := by
  show evt.path.write 0 _ i = evt.path i
  refine Buffer.write_above ?_
  rw [Buffer.length_window, safePathLen_eq]
  omega

theorem path_reportViolation (id : PolicyID) (st : PolicySettings) (evt : ProcessEvt) :
    (reportViolation x id st evt).evt.path = evt.path := by
  unfold reportViolation
  cases x.probes.ringbufOutput <;> rfl

theorem path_judgeForeign (id : PolicyID) (off : Nat) (evt : ProcessEvt) (hi : 4096 ≤ i) :
    (judgeForeign x maps id off evt).evt.path i = evt.path i := by
  unfold judgeForeign
  cases maps.policySettings id with
  | none => rfl
  | some st =>
    simp only
    split_ifs
    · rfl
    · rfl
    · rw [path_reportViolation, path_copyExecPath _ _ hi]

theorem path_judgeListed (id : PolicyID) (off : Nat) (evt : ProcessEvt) (hi : 4096 ≤ i) :
    (judgeListed x maps id off evt).evt.path i = evt.path i := by
  unfold judgeListed
  simp only
  split_ifs
  · rfl
  · rfl
  · rfl
  · cases maps.policySettings id with
    | none => exact path_copyExecPath _ _ hi
    | some st => simp only [path_reportViolation, path_copyExecPath _ _ hi]

theorem path_reportLearning (t : CgroupID) (foreign : Bool) (evt : ProcessEvt) (hi : 4096 ≤ i) :
    (reportLearning x t foreign evt).evt.path i =
      if x.conf.learningEnabled && x.probes.evtLookup && !foreign then walked x evt.path i
      else evt.path i := by
  unfold reportLearning
  cases x.conf.learningEnabled with
  | false => rfl
  | true =>
    cases x.probes.evtLookup with
    | false => rfl
    | true =>
      cases foreign with
      | true => simp; split <;> rfl
      | false =>
        have hpop := path_populateEvtWithPath x
          { evt with cgTrackerId := t, mode := 0, foreign := 0 }
        simp only [Bool.not_true, Bool.false_eq_true, if_false, Bool.and_true, Bool.not_false,
          if_true]
        rw [← hpop]
        split_ifs
        · rfl
        · rfl
        · exact path_copyExecPath _ _ hi
        · exact path_copyExecPath _ _ hi

theorem path_enforceCgroupPolicy (evt : ProcessEvt) (hi : 4096 ≤ i) :
    (enforceCgroupPolicy x maps evt).evt.path i =
      if walks x maps then walked x evt.path i else evt.path i := by
  by_cases ht : getTrackerIdFromCurrTask maps x = 0
  · simp [enforceCgroupPolicy, walks, ht]
  cases hb : execIsRuntimeBootstrap maps x (getTrackerIdFromCurrTask maps x) with
  | true => simp [enforceCgroupPolicy, walks, ht, hb]
  | false =>
    cases hl : maps.cgToPolicy.lookup (getTrackerIdFromCurrTask maps x) with
    | none =>
      have hlearn : enforceCgroupPolicy x maps evt
          = reportLearning x (getTrackerIdFromCurrTask maps x) (execIsForeignRoot x) evt := by
        simp [enforceCgroupPolicy, ht, hb, hl]
      rw [hlearn, path_reportLearning _ _ _ hi]
      cases he : x.probes.evtLookup <;> simp [walks, ht, hb, hl, he]
    | some id =>
      cases he : x.probes.evtLookup with
      | false => simp [enforceCgroupPolicy, walks, ht, hb, hl, he]
      | true =>
        have hw : walks x maps = true := by simp [walks, ht, hb, hl, he]
        have hpath := path_populateEvtWithPath x (startEvt x maps evt)
        rcases hpop : populateEvtWithPath x (startEvt x maps evt) with ⟨off, evt', logs⟩
        rw [hpop] at hpath
        rw [if_pos hw, enforceCgroupPolicy_judged ⟨ht, hl, hb, he⟩ hpop]
        refine Eq.trans ?_ (congrFun hpath i)
        split_ifs
        · rfl
        · exact path_judgeForeign _ _ _ hi
        · exact path_judgeListed _ _ _ hi

end

/-! ## Runs of execs on one CPU -/

/-- One exec, with the maps as they are at that moment. -/
structure HookInput where
  exec : Exec
  maps : BpfMaps

/-- What an exec leaves in the event of its CPU. -/
def HookInput.step (a : HookInput) (evt : ProcessEvt) : ProcessEvt :=
  (enforceCgroupPolicy a.exec a.maps evt).evt

/-- If the hook gets as far as the file's path, none of the components it lays straddles. -/
def HookInput.Tidies (_ : ProcessEvt) (a : HookInput) : Prop :=
  walks a.exec a.maps = true → ∀ file, a.exec.file = some file → ∃ links fin,
    OnChain a.exec file links fin ∧ Tidy (startOff a.exec.mem file.dentry)
      (namesOf (links.take (iterationBound a.exec.iterNum)))

theorem walked_third {x : Exec} {file : File} {links : List (Option Bytes)} {fin : Addr}
    (hx : OnChain x file links fin)
    (h : Tidy (startOff x.mem file.dentry) (namesOf (links.take (iterationBound x.iterNum))))
    (hi : 8192 ≤ i) : walked x buf i = buf i := by
  unfold walked
  rw [hx.file_eq]
  simp only
  split
  case isFalse => rfl
  case isTrue =>
    obtain ⟨d, hd, _, hwalk⟩ := bpfDPathApprox_chain hx.chain hx.mount hx.root x.iterNum buf
    rw [hwalk]
    refine (layNames_third ?_ (tidy_laidNames h) hi).trans (startBuf_third _ _ _ hi)
    intro name hname
    unfold laidNames at hname
    split at hname
    · rw [List.mem_singleton.mp hname]
      exact hd
    · exact hx.chain.names name (mem_namesOf.mpr (List.mem_of_mem_take (mem_namesOf.mp hname)))

theorem Clean.step {evt : ProcessEvt} {a : HookInput} (hc : Clean evt) (h : a.Tidies evt) :
    Clean (a.step evt) := by
  intro i h₁ h₂
  unfold HookInput.step
  rw [path_enforceCgroupPolicy evt (by omega)]
  split
  case isFalse => exact hc i h₁ h₂
  case isTrue hw =>
    cases hf : a.exec.file with
    | none =>
      unfold walked
      rw [hf]
      exact hc i h₁ h₂
    | some file =>
      obtain ⟨links, fin, hx, htidy⟩ := h hw file hf
      rw [walked_third hx htidy h₁]
      exact hc i h₁ h₂

/-- **The third segment stays clean over every run of tidy execs.** -/
theorem clean_run {inputs : List HookInput}
    (h : Along HookInput.step HookInput.Tidies inputs zeroEvt) (n : Nat) :
    Clean (run HookInput.step (inputs.take n) zeroEvt) := by
  have hpre : Along HookInput.step HookInput.Tidies (inputs.take n) zeroEvt := by
    rw [← List.take_append_drop n inputs, along_append] at h
    exact h.1
  exact run_inv (fun _ _ hc ht => hc.step ht) (fun _ _ _ => rfl) hpre

def learnA : HookInput := ⟨branchExec [0x61] 1 7, learnMaps⟩

theorem clean_run_learnA : Clean (run HookInput.step ([learnA, learnA].take 2) zeroEvt) := by
  have htidy : ∀ evt, learnA.Tidies evt := by
    intro evt _ file hfile
    cases hfile
    exact ⟨_, _, onChain_branchExec (by decide) 1 7, tidy_of_fits (by decide) (by decide)⟩
  have hrun : Along HookInput.step HookInput.Tidies [learnA, learnA] zeroEvt :=
    ⟨htidy _, htidy _, trivial⟩
  exact clean_run hrun 2

def learnLong : HookInput := ⟨branchExec (List.replicate 254 0x61) 33 7, learnMaps⟩

/-- The last component to be laid crosses offset 0 of the buffer, comes back at its end, and runs
into the third segment. -/
theorem not_clean_learnLong :
    OnChain learnLong.exec { mnt := 288, dentry := 4160 }
      (List.replicate 33 (some (List.replicate 254 0x61))) 2048 ∧
    ¬ Clean (run HookInput.step [learnLong] zeroEvt) := by
  have hok : NameOk (List.replicate 254 0x61) := by
    unfold NameOk
    rw [List.length_replicate]
    omega
  refine ⟨onChain_branchExec hok 33 7, fun h => ?_⟩
  have hbyte : (run HookInput.step [learnLong] zeroEvt).path 8192 = 0x61 := by decide +kernel
  exact absurd ((h 8192 (by decide) (by decide)).symm.trans hbyte) (by decide)

end RuntimeEnforcer.Hook
