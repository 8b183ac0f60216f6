import RuntimeEnforcer.Proof.PathWalk

/-!
# When protect mode denies

An exec in a container whose policy protects is to be denied unless the policy lets it through:
the file is on a foreign root and the policy opts out, or it is not and its full path is stored
for the policy. `NoBypass` says that of one exec, whatever the string maps hold.

The hook resolves the path before it decides anything, and answers `0` when there is none to act
on; so the deny depends on how deep and how long the path is. `noBypass_iff` is the exact
condition.
-/

set_option autoImplicit false

namespace RuntimeEnforcer.Hook

open Lib

/-! ## Verdicts -/

variable {maps : BpfMaps} {id : PolicyID} {x : Exec}

theorem ret_reportViolation (x : Exec) (id : PolicyID) (st : PolicySettings) (evt : ProcessEvt) :
    (reportViolation x id st evt).ret = if st.mode = policyModeMonitor then 0 else -eperm := by
  unfold reportViolation
  cases hr : x.probes.ringbufOutput <;> simp

theorem ret_judgeForeign {st : PolicySettings} (hst : maps.policySettings id = some st)
    (hcopy : x.probes.copyRead = true) (off : Nat) (evt : ProcessEvt) :
    (judgeForeign x maps id off evt).ret =
      if st.allowForeignRoot ≠ 0 ∨ st.mode = policyModeMonitor then 0 else -eperm := by
  unfold judgeForeign
  simp only [hst, hcopy]
  by_cases hallow : st.allowForeignRoot ≠ 0
  · simp [hallow]
  · simp [hallow, ret_reportViolation]

theorem ret_judgeListed {st : PolicySettings} (hst : maps.policySettings id = some st)
    (hcopy : x.probes.copyRead = true) (off : Nat) {evt : ProcessEvt}
    (hver : ¬ (x.linuxKernelVersion < kernelVersion 5 11 0 ∧ evt.pathLen > stringMapSize7)) :
    (judgeListed x maps id off evt).ret =
      if stringMapLookup maps (stringMapIndex (stringPaddedLen evt.pathLen)) id evt.path
          (safePathAccess off) = true ∨ st.mode = policyModeMonitor then 0 else -eperm := by
  unfold judgeListed
  rw [if_neg hver]
  by_cases hfound : stringMapLookup maps (stringMapIndex (stringPaddedLen evt.pathLen)) id
      evt.path (safePathAccess off) = true
  · simp [hfound]
  · simp [hfound, hcopy, hst, ret_reportViolation]

/-- The exec is one the hook judges by policy `id`: its task is tracked, the cgroup is bound, and it
is not the runtime's bootstrap. -/
structure Judged (x : Exec) (maps : BpfMaps) (id : PolicyID) : Prop where
  tracked : getTrackerIdFromCurrTask maps x ≠ 0
  bound : maps.cgToPolicy.lookup (getTrackerIdFromCurrTask maps x) = some id
  workload : execIsRuntimeBootstrap maps x (getTrackerIdFromCurrTask maps x) = false
  evtLookup : x.probes.evtLookup = true

/-- The reads the hook checks succeed. -/
structure ReadsOk (x : Exec) : Prop where
  dentryRead : x.probes.dentryRead = true
  copyRead : x.probes.copyRead = true

def startEvt (x : Exec) (maps : BpfMaps) (evt : ProcessEvt) : ProcessEvt :=
  { evt with
    cgTrackerId := getTrackerIdFromCurrTask maps x
    foreign := if execIsForeignRoot x then 1 else 0 }

theorem enforceCgroupPolicy_judged (h : Judged x maps id) {evt evt' : ProcessEvt} {off : Nat}
    {logs : List LogEvent}
    (hpop : populateEvtWithPath x (startEvt x maps evt) = (off, evt', logs)) :
    enforceCgroupPolicy x maps evt =
      if off = 0 then { ret := 0, evt := evt', logs }
      else if execIsForeignRoot x then judgeForeign x maps id off evt'
      else judgeListed x maps id off evt' := by
  unfold startEvt at hpop
  unfold enforceCgroupPolicy
  simp only [if_neg h.tracked, h.workload, h.bound, h.evtLookup, Bool.false_eq_true, if_false,
    Bool.not_true, hpop]

/-! ## The property -/

variable {P : Bytes}

/-- `P` is one of the strings stored for `id`. -/
def Stored (maps : BpfMaps) (id : PolicyID) (P : Bytes) : Prop :=
  ∃ i inner, maps.polStrMaps i id = some inner ∧ P.length ≤ stringMapsSizes i ∧
    padTo (stringMapsSizes i) P ∈ inner

/-- The maps with other string maps. -/
def withStrings (maps : BpfMaps)
    (strs : (i : MapIndex) → PolicyID → Option (InnerMap (stringMapsSizes i))) : BpfMaps :=
  { maps with polStrMaps := strs }

/-- Whatever is stored for the policy, the exec is denied unless the policy lets it through. -/
def NoBypass (x : Exec) (maps : BpfMaps) (id : PolicyID) (st : PolicySettings) (evt : ProcessEvt)
    (P : Bytes) : Prop :=
  ∀ strs, (enforceCgroupPolicy x (withStrings maps strs) evt).ret = -eperm ∨
    (execIsForeignRoot x = true ∧ st.allowForeignRoot ≠ 0) ∨
    (execIsForeignRoot x = false ∧ Stored (withStrings maps strs) id P)

/-- The bytes behind a path of `len` bytes, up to the key size the hook looks up, are NUL. -/
def Padded (evt : ProcessEvt) (len : Nat) : Prop :=
  ∀ j, 8192 ≤ j → j < 8192 - len + keySize len → evt.path j = 0

theorem Judged.withStrings (h : Judged x maps id)
    (strs : (i : MapIndex) → PolicyID → Option (InnerMap (stringMapsSizes i))) :
    Judged x (withStrings maps strs) id :=
  ⟨h.tracked, h.bound, h.workload, h.evtLookup⟩

/-- String maps that hold one key, in one class. -/
def onlyKey (i : MapIndex) (key : Key (stringMapsSizes i)) :
    (j : MapIndex) → PolicyID → Option (InnerMap (stringMapsSizes j)) :=
  Function.update (fun _ _ => none) i fun _ => some [key]

theorem onlyKey_eq_some {i j : MapIndex} {key : Key (stringMapsSizes i)}
    {inner : InnerMap (stringMapsSizes j)} (h : onlyKey i key j id = some inner) :
    ∃ hij : j = i, hij ▸ inner = [key] := by
  by_cases hij : j = i
  · subst hij
    exact ⟨rfl, by simpa [onlyKey] using h.symm⟩
  · simp [onlyKey, Function.update_of_ne hij] at h

def keyAt (buf : Buffer) (pos n : Nat) : Key n := ⟨buf.window pos n, by simp⟩

theorem toList_keyAt (buf : Buffer) (pos n : Nat) :
    (keyAt buf pos n).toList = buf.window pos n := rfl

theorem stringMapLookup_onlyKey {index : Int} {i : MapIndex} (hi : outerMap index = some i)
    (id : PolicyID) (buf : Buffer) (pos : Nat) :
    stringMapLookup (withStrings maps (onlyKey i (keyAt buf pos (stringMapsSizes i))))
      index id buf pos = true := by
  rw [stringMapLookup_iff]
  exact ⟨i, hi, [keyAt buf pos (stringMapsSizes i)], by simp [withStrings, onlyKey], _,
    List.mem_singleton.mpr rfl, toList_keyAt buf pos _⟩

/-- Nothing longer than the largest key is stored. -/
theorem not_stored_of_long (h : 4096 < P.length) : ¬ Stored maps id P := by
  rintro ⟨i, _, _, hle, _⟩
  have := stringMapsSizes_le i
  unfold maxStringMapsSize at this
  omega

theorem not_stored_of_none : ¬ Stored (withStrings maps fun _ _ => none) id P := by
  rintro ⟨i, inner, h, _⟩
  exact absurd h (by simp [withStrings])

/-! ## When it holds -/

variable {buf : Buffer}

theorem window_eq_padTo_iff {pos n : Nat} (hw : buf.window pos P.length = P) :
    buf.window pos n = (padTo n P).toList ↔
      ∀ j, pos + P.length ≤ j → j < pos + n → buf j = 0 := by
  constructor
  · intro h j h₁ h₂
    have hj := congrArg (·[j - pos]?) h
    simp only [Buffer.getElem?_window, getElem?_padTo, if_pos (show j - pos < n by omega),
      Option.some.injEq] at hj
    rw [show pos + (j - pos) = j by omega, List.getElem?_eq_none (by omega)] at hj
    exact hj
  · intro h
    refine List.ext_getElem? fun i => ?_
    rw [Buffer.getElem?_window, getElem?_padTo]
    by_cases hi : i < n
    · rw [if_pos hi, if_pos hi, Option.some.injEq]
      by_cases hp : i < P.length
      · rw [(Buffer.window_eq_iff rfl).mp hw i hp]
        rfl
      · rw [h (pos + i) (by omega) (by omega), List.getElem?_eq_none (by omega)]
        rfl
    · rw [if_neg hi, if_neg hi]

section

variable {x : Exec} {maps : BpfMaps} {id : PolicyID} {st : PolicySettings} {file : File}
  {links : List (Option Bytes)} {fin : Addr} {evt : ProcessEvt}

theorem ret_of_unresolved (hj : Judged x maps id) (hr : ReadsOk x) (hx : OnChain x file links fin)
    (hres : ¬ Resolves x links) (evt : ProcessEvt) : (enforceCgroupPolicy x maps evt).ret = 0 := by
  obtain ⟨buf, hpop⟩ := populateEvtWithPath_unresolved hx hr.dentryRead hres (startEvt x maps evt)
  rw [enforceCgroupPolicy_judged hj hpop, if_pos rfl]

theorem ret_of_length_eq (hj : Judged x maps id) (hr : ReadsOk x) (hx : OnChain x file links fin)
    (hres : Resolves x links) (hlen : (fullPath x.mem file.dentry links fin).length = 8192)
    (evt : ProcessEvt) : (enforceCgroupPolicy x maps evt).ret = 0 := by
  obtain ⟨buf, _, hpop⟩ := populateEvtWithPath_resolved hx hr.dentryRead hres (startEvt x maps evt)
  rw [if_pos hlen] at hpop
  rw [enforceCgroupPolicy_judged hj hpop, if_pos rfl]

theorem ret_of_resolved (hj : Judged x maps id) (hr : ReadsOk x)
    (hst : maps.policySettings id = some st)
    (hver : kernelVersion 5 11 0 ≤ x.linuxKernelVersion)
    (hx : OnChain x file links fin) (hres : Resolves x links)
    (hlen : (fullPath x.mem file.dentry links fin).length ≠ 8192) (evt : ProcessEvt) :
    let P := fullPath x.mem file.dentry links fin
    ∃ buf : Buffer,
      (P.length ≤ 8192 → buf.window (8192 - P.length) P.length = P ∧
        ∀ i, i < 8192 - P.length ∨ 8192 ≤ i → buf i = evt.path i) ∧
      ∀ strs, (enforceCgroupPolicy x (withStrings maps strs) evt).ret =
        if execIsForeignRoot x then
          if st.allowForeignRoot ≠ 0 ∨ st.mode = policyModeMonitor then 0 else -eperm
        else if stringMapLookup (withStrings maps strs)
              (stringMapIndex (stringPaddedLen (P.length % 2 ^ 16))) id buf
              (safePathAccess (u32Sub 8192 P.length)) = true ∨ st.mode = policyModeMonitor then 0
        else -eperm := by
  intro P
  have hlt : P.length < 2 ^ 32 := hx.length_lt hres
  obtain ⟨buf, hbuf, hpop⟩ :=
    populateEvtWithPath_resolved hx hr.dentryRead hres (startEvt x maps evt)
  rw [if_neg hlen] at hpop
  refine ⟨buf, hbuf, fun strs => ?_⟩
  have hst' : (withStrings maps strs).policySettings id = some st := hst
  have hoff : u32Sub 8192 P.length ≠ 0 := by
    have hne : P.length ≠ 8192 := hlen
    unfold u32Sub
    omega
  rw [enforceCgroupPolicy_judged (hj.withStrings strs) hpop, if_neg hoff]
  split
  · exact ret_judgeForeign hst' hr.copyRead _ _
  · exact ret_judgeListed hst' hr.copyRead _ fun h => absurd h.1 (Nat.not_lt.mpr hver)

theorem stored_of_found {evt : ProcessEvt}
    {strs : (i : MapIndex) → PolicyID → Option (InnerMap (stringMapsSizes i))}
    (hbuf : P.length ≤ 8192 → buf.window (8192 - P.length) P.length = P ∧
      ∀ i, i < 8192 - P.length ∨ 8192 ≤ i → buf i = evt.path i) (h₁ : 1 ≤ P.length)
    (h : P.length ≤ 4096 ∧ Padded evt P.length ∨ P.length % 65536 = 0)
    (hfound : stringMapLookup (withStrings maps strs)
      (stringMapIndex (stringPaddedLen (P.length % 2 ^ 16))) id buf
      (safePathAccess (u32Sub 8192 P.length)) = true) : Stored (withStrings maps strs) id P := by
  obtain ⟨i, hi, inner, hin, key, hkey, hwin⟩ := stringMapLookup_iff.mp hfound
  rcases h with ⟨hle, hpad⟩ | hmod
  · have hpos : safePathAccess (u32Sub 8192 P.length) = 8192 - P.length := by
      rw [safePathAccess_eq]; unfold u32Sub; omega
    have hi' : consulted P.length = some i := by
      rw [Nat.mod_eq_of_lt (by omega)] at hi
      exact hi
    obtain ⟨hw, hf⟩ := hbuf (by omega)
    have hkeyEq : padTo (stringMapsSizes i) P = key := by
      refine List.Vector.eq _ _ ?_
      rw [hwin, hpos]
      refine ((window_eq_padTo_iff hw).mpr fun j hj₁ hj₂ => ?_).symm
      rw [hf j (Or.inr (by omega))]
      exact hpad j (by omega) (by rw [← keySize_of_consulted h₁ hi']; exact hj₂)
    exact ⟨i, inner, hin, le_of_consulted h₁ hle hi', hkeyEq ▸ hkey⟩
  · -- the truncated length is 0, for which there is no map
    have hnone : outerMap (stringMapIndex (stringPaddedLen 0)) = none := rfl
    rw [show P.length % 2 ^ 16 = 0 from hmod, hnone] at hi
    exact absurd hi (by simp)

/-- A path too long for any key, or with a dirty byte behind it, passes for some stored string. -/
theorem exists_key_not_stored (maps : BpfMaps) (id : PolicyID) {evt : ProcessEvt}
    (h₁ : 1 ≤ P.length) (hbuf : P.length ≤ 8192 → buf.window (8192 - P.length) P.length = P ∧
      ∀ i, i < 8192 - P.length ∨ 8192 ≤ i → buf i = evt.path i)
    (hbad : ¬ (P.length ≤ 4096 ∧ Padded evt P.length)) (hmod : P.length % 65536 ≠ 0)
    (hlt : P.length < 2 ^ 32) :
    ∃ strs, ¬ Stored (withStrings maps strs) id P ∧
      stringMapLookup (withStrings maps strs)
        (stringMapIndex (stringPaddedLen (P.length % 2 ^ 16))) id buf
        (safePathAccess (u32Sub 8192 P.length)) = true := by
  obtain ⟨i, hi⟩ := Option.isSome_iff_exists.mp
    (consulted_isSome (show 1 ≤ P.length % 65536 by omega))
  refine ⟨_, fun hst => hbad ?_, stringMapLookup_onlyKey hi id buf _⟩
  by_cases hlong : 4096 < P.length
  · exact absurd hst (not_stored_of_long hlong)
  · obtain ⟨j, inner, hin, hle, hmem⟩ := hst
    obtain ⟨rfl, hinner⟩ := onlyKey_eq_some hin
    obtain rfl : inner = _ := hinner
    have hpos : safePathAccess (u32Sub 8192 P.length) = 8192 - P.length := by
      rw [safePathAccess_eq]; unfold u32Sub; omega
    rw [Nat.mod_eq_of_lt (by omega)] at hi
    obtain ⟨hw, hf⟩ := hbuf (by omega)
    have hkey := congrArg List.Vector.toList (List.mem_singleton.mp hmem)
    rw [toList_keyAt, hpos] at hkey
    refine ⟨by omega, fun p h₁' h₂ => ?_⟩
    rw [← keySize_of_consulted h₁ hi] at h₂
    rw [← hf p (Or.inr h₁')]
    exact (window_eq_padTo_iff hw).mp hkey.symm p (by omega) h₂

theorem noBypass_of_ret_zero
    (hret : ∀ strs, (enforceCgroupPolicy x (withStrings maps strs) evt).ret = 0)
    (hallow : ¬ (execIsForeignRoot x = true ∧ st.allowForeignRoot ≠ 0)) :
    ¬ NoBypass x maps id st evt P := by
  intro h
  rcases h (fun _ _ => none) with h | h | h
  · rw [hret] at h
    exact absurd h (by decide)
  · exact hallow h
  · exact not_stored_of_none h.2

/-- **When protect mode has no bypass.** -/
theorem noBypass_iff (hj : Judged x maps id) (hr : ReadsOk x)
    (hst : maps.policySettings id = some st)
    (hmode : st.mode = policyModeProtect) (hver : kernelVersion 5 11 0 ≤ x.linuxKernelVersion)
    (hx : OnChain x file links fin) (evt : ProcessEvt) :
    NoBypass x maps id st evt (fullPath x.mem file.dentry links fin) ↔
      (execIsForeignRoot x = true ∧ st.allowForeignRoot ≠ 0) ∨
      (Resolves x links ∧
        if execIsForeignRoot x then (fullPath x.mem file.dentry links fin).length ≠ 8192
        else ((fullPath x.mem file.dentry links fin).length ≤ 4096 ∧
            Padded evt (fullPath x.mem file.dentry links fin).length) ∨
          (fullPath x.mem file.dentry links fin).length % 65536 = 0) := by
  by_cases hallow : execIsForeignRoot x = true ∧ st.allowForeignRoot ≠ 0
  · exact iff_of_true (fun _ => Or.inr (Or.inl hallow)) (Or.inl hallow)
  have hmon : ¬ st.mode = policyModeMonitor := by rw [hmode]; decide
  rw [or_iff_right hallow]
  by_cases hres : Resolves x links
  case neg =>
    refine iff_of_false (noBypass_of_ret_zero (fun strs => ?_) hallow) fun h => hres h.1
    exact ret_of_unresolved (hj.withStrings strs) hr hx hres evt
  by_cases hlen : (fullPath x.mem file.dentry links fin).length = 8192
  case pos =>
    refine iff_of_false (noBypass_of_ret_zero (fun strs => ?_) hallow) fun h => ?_
    · exact ret_of_length_eq (hj.withStrings strs) hr hx hres hlen evt
    · rw [hlen] at h
      split at h <;> simp at h
  obtain ⟨buf, hbuf, hret⟩ := ret_of_resolved hj hr hst hver hx hres hlen evt
  rw [and_iff_right hres]
  cases hf : execIsForeignRoot x with
  | true =>
    have hzero : ¬ st.allowForeignRoot ≠ 0 := fun h => hallow ⟨hf, h⟩
    refine iff_of_true (fun strs => Or.inl ?_) hlen
    rw [hret strs, hf, if_pos rfl, if_neg (not_or.mpr ⟨hzero, hmon⟩)]
  | false =>
    simp only [hf, Bool.false_eq_true, if_false, hmon, or_false] at hret
    rw [if_neg (by simp)]
    constructor
    · -- otherwise some string maps let the exec pass
      intro h
      by_contra hbad
      obtain ⟨hpad, hmod⟩ := not_or.mp hbad
      obtain ⟨strs, hnot, hfound⟩ := exists_key_not_stored maps id (one_le_length_fullPath ..)
        hbuf hpad hmod (hx.length_lt hres)
      rcases h strs with h | h | h
      · rw [hret strs, if_pos hfound] at h
        exact absurd h (by decide)
      · exact hallow h
      · exact hnot h.2
    · intro h strs
      by_cases hfound : stringMapLookup (withStrings maps strs) (stringMapIndex (stringPaddedLen
          ((fullPath x.mem file.dentry links fin).length % 2 ^ 16))) id buf
          (safePathAccess (u32Sub 8192 (fullPath x.mem file.dentry links fin).length)) = true
      · exact Or.inr (Or.inr ⟨hf, stored_of_found hbuf (one_le_length_fullPath ..) h hfound⟩)
      · exact Or.inl (by rw [hret strs, if_neg hfound])

end

/-! An exec of `/a` in a container that protects is denied or let through as it should be. -/

theorem judged_branchExec (name : Bytes) (j ns : Nat) (st : PolicySettings) :
    Judged (branchExec name j ns) (boundMaps st) 1 :=
  ⟨fun h => absurd (show 7 = 0 from h) (by decide), rfl,
    by unfold execIsRuntimeBootstrap; split_ifs <;> rfl, rfl⟩

theorem readsOk_branchExec (name : Bytes) (j ns : Nat) : ReadsOk (branchExec name j ns) :=
  ⟨rfl, rfl⟩

theorem noBypass_short : NoBypass (branchExec [0x61] 1 7) (boundMaps ⟨2, 0⟩) 1 ⟨2, 0⟩ zeroEvt
    (fullPath (branchMem [0x61]) 2112 [some [0x61]] 2048) :=
  (noBypass_iff (judged_branchExec _ 1 7 _) (readsOk_branchExec _ 1 7) rfl rfl (by decide)
    (onChain_branchExec (by decide) 1 7) zeroEvt).mpr
    (Or.inr ⟨by decide, Or.inl ⟨by decide, fun _ _ _ => rfl⟩⟩)

/-- A file 512 directories deep, on a foreign root, in a container that protects without the
opt-out: on a kernel without numeric iterators the walk gives up at the iteration bound, and the
exec is let through. -/
theorem foreign_deep_allowed :
    Judged (branchExec [0x61] 512 9) (boundMaps ⟨2, 0⟩) 1 ∧ ReadsOk (branchExec [0x61] 512 9) ∧
    OnChain (branchExec [0x61] 512 9) { mnt := 288, dentry := 34816 }
      (List.replicate 512 (some [0x61])) 2048 ∧
    execIsForeignRoot (branchExec [0x61] 512 9) = true ∧
    (enforceCgroupPolicy (branchExec [0x61] 512 9) (boundMaps ⟨2, 0⟩) zeroEvt).ret = 0 := by
  have hx : OnChain (branchExec [0x61] 512 9) _ _ _ := onChain_branchExec (by decide) 512 9
  have hres : ¬ Resolves (branchExec [0x61] 512 9) (List.replicate 512 (some [0x61])) := by
    unfold Resolves
    rw [List.length_replicate]
    decide
  refine ⟨judged_branchExec _ _ _ _, readsOk_branchExec _ _ _, hx, rfl, ?_⟩
  exact ret_of_unresolved (judged_branchExec _ _ _ _) (readsOk_branchExec _ _ _) hx hres zeroEvt

end RuntimeEnforcer.Hook
