import RuntimeEnforcer.Lib.ByteOrder
import RuntimeEnforcer.Manager.Events
import RuntimeEnforcer.Proof.Bypass

/-!
# From the hook's record to userspace's event

The hook copies the resolved path to the front of `process_evt` and submits the first
`19 + path_len` bytes; userspace reads a twelve-byte header and `path_len` bytes. Both lengths on
the hook's side go through `SAFE_PATH_LEN`, a mask of twelve bits, and the front of the buffer
still holds the path of an earlier exec.

`evt.stale seg` is the event with `seg` in its first segment: what earlier execs may have left
there. `decodes_iff` says when the decoded event is right over all of them.
-/

set_option autoImplicit false

namespace RuntimeEnforcer.Hook

open Lib

/-! ## Little-endian numbers and the header -/

theorem fromLeBytes_leBytes (w n : Nat) : fromLeBytes (leBytes w n) = n % 256 ^ w :=
  ByteOrder.little.uint_put w n

@[simp] theorem length_leBytes (w n : Nat) : (leBytes w n).length = w :=
  ByteOrder.little.length_put w n

@[simp] theorem length_evtHeader (evt : ProcessEvt) : (evtHeader evt).length = 12 := by
  simp [evtHeader]

theorem readHeader_evtRecord {evt : ProcessEvt} (h₁ : evt.cgTrackerId < 2 ^ 64)
    (h₂ : evt.pathLen < 2 ^ 16) (n : Nat) :
    readHeader (evtRecord evt n) = some ({
      cgTrackerID := evt.cgTrackerId, pathLen := evt.pathLen, mode := evt.mode,
      foreign := evt.foreign }, evt.path.window 0 (n - 12)) := by
  unfold readHeader evtRecord
  rw [if_neg (by simp), length_evtHeader]
  have hid : (evtHeader evt).take 8 = leBytes 8 evt.cgTrackerId := by
    rw [evtHeader, List.append_assoc]
    exact List.take_left' (length_leBytes _ _)
  have hlen : ((evtHeader evt).drop 8).take 2 = leBytes 2 evt.pathLen := by
    rw [evtHeader, List.append_assoc, List.drop_left' (length_leBytes _ _)]
    exact List.take_left' (length_leBytes _ _)
  have htake : ∀ rest : Bytes, (evtHeader evt ++ rest).take 8 = (evtHeader evt).take 8 :=
    fun rest =>
    List.take_append_of_le_length (by simp)
  have hdrop : ∀ rest : Bytes, ((evtHeader evt ++ rest).drop 8).take 2
      = ((evtHeader evt).drop 8).take 2 := fun rest => by
    rw [List.drop_append_of_le_length (by simp), List.take_append_of_le_length (by simp)]
  have hrest : ∀ rest : Bytes, (evtHeader evt ++ rest).drop 12 = rest := fun rest =>
    List.drop_left' (length_evtHeader evt)
  rw [htake, hdrop, hid, hlen, hrest, fromLeBytes_leBytes, fromLeBytes_leBytes,
    Nat.mod_eq_of_lt (Nat.lt_of_lt_of_le h₁ (by decide)),
    Nat.mod_eq_of_lt (Nat.lt_of_lt_of_le h₂ (by decide))]
  rfl

theorem bufRead_eq {rest : Bytes} {n : Nat} (h : rest ≠ []) :
    bufRead rest n = some ((rest ++ List.replicate n 0).take n) := by
  unfold bufRead
  rw [if_neg (fun hc => h (List.length_eq_zero_iff.mp hc.1))]

/-! ## The record -/

def Outcome.record (o : Outcome) : Option Bytes := o.execve.or o.monitoring

/-- The event with `seg` in its first segment. -/
def ProcessEvt.stale (evt : ProcessEvt) (seg : Buffer) : ProcessEvt :=
  { evt with path := fun i => if i < 4096 then seg i else evt.path i }

/-- The settings that judge the exec; none for a cgroup without a policy. -/
def settingsFor (x : Exec) (maps : BpfMaps) : Option PolicySettings :=
  (maps.cgToPolicy.lookup (getTrackerIdFromCurrTask maps x)).bind maps.policySettings

def modeByte (x : Exec) (maps : BpfMaps) : UInt8 :=
  (settingsFor x maps).elim 0 fun st => st.mode

/-- The exec gets as far as the path: it is tracked and no bootstrap, every checked call succeeds,
and a foreign exec is only looked at when its cgroup has a policy. -/
structure Reaches (x : Exec) (maps : BpfMaps) : Prop where
  tracked : getTrackerIdFromCurrTask maps x ≠ 0
  workload : execIsRuntimeBootstrap maps x (getTrackerIdFromCurrTask maps x) = false
  evtLookup : x.probes.evtLookup = true
  dentryRead : x.probes.dentryRead = true
  copyRead : x.probes.copyRead = true
  ringbufOutput : x.probes.ringbufOutput = true
  native : maps.cgToPolicy.lookup (getTrackerIdFromCurrTask maps x) = none →
    execIsForeignRoot x = false

/-- Whether the exec is reported, given the resolved path at `pos` in `buf`. -/
def reported (x : Exec) (maps : BpfMaps) (buf : Buffer) (pos pathLen : Nat) : Bool :=
  match maps.cgToPolicy.lookup (getTrackerIdFromCurrTask maps x) with
  | none => x.conf.learningEnabled
  | some id =>
    match maps.policySettings id with
    | none => false
    | some st =>
      if execIsForeignRoot x then st.allowForeignRoot = 0
      else !(decide (x.linuxKernelVersion < kernelVersion 5 11 0 ∧ pathLen > stringMapSize7) ||
        stringMapLookup maps (stringMapIndex (stringPaddedLen pathLen)) id buf pos)

/-- The buffer after the copy, for a path of `len` bytes right in front of the third segment. -/
def copiedPath (buf : Buffer) (len : Nat) : Buffer :=
  buf.write 0 (buf.window (8192 - len) (safePathLen (len + 1)))

/-- The event as submitted, for a path of `len` bytes resolved into `buf`. -/
def submitted (x : Exec) (maps : BpfMaps) (buf : Buffer) (len : Nat) : ProcessEvt where
  cgTrackerId := getTrackerIdFromCurrTask maps x
  pathLen := len
  mode := modeByte x maps
  foreign := if execIsForeignRoot x then 1 else 0
  path := copiedPath buf len

section

variable {x : Exec} {maps : BpfMaps}

theorem record_reportViolation (h : x.probes.ringbufOutput = true) (id : PolicyID)
    (st : PolicySettings) (evt : ProcessEvt) :
    (reportViolation x id st evt).record
      = some (evtRecord { evt with mode := st.mode } (19 + safePathLen evt.pathLen)) := by
  simp [reportViolation, h, Outcome.record]

theorem record_judgeForeign (h : Reaches x maps) {id : PolicyID} (off : Nat) (evt : ProcessEvt) :
    (judgeForeign x maps id off evt).record = match maps.policySettings id with
      | none => none
      | some st => if st.allowForeignRoot = 0 then
          some (evtRecord { copyExecPath evt off with mode := st.mode }
            (19 + safePathLen evt.pathLen))
        else none := by
  unfold judgeForeign
  cases maps.policySettings id with
  | none => rfl
  | some st =>
    by_cases hallow : st.allowForeignRoot = 0
    · simp [hallow, h.copyRead, record_reportViolation h.ringbufOutput, copyExecPath]
    · simp [hallow, Outcome.record]

theorem record_judgeListed (h : Reaches x maps) {id : PolicyID} (off : Nat) (evt : ProcessEvt) :
    (judgeListed x maps id off evt).record = match maps.policySettings id with
      | none => none
      | some st =>
        if !(decide (x.linuxKernelVersion < kernelVersion 5 11 0 ∧ evt.pathLen > stringMapSize7) ||
          stringMapLookup maps (stringMapIndex (stringPaddedLen evt.pathLen)) id evt.path
            (safePathAccess off)) then
          some (evtRecord { copyExecPath evt off with mode := st.mode }
            (19 + safePathLen evt.pathLen))
        else none := by
  unfold judgeListed
  by_cases hver : x.linuxKernelVersion < kernelVersion 5 11 0 ∧ evt.pathLen > stringMapSize7
  · cases maps.policySettings id <;> simp [hver, Outcome.record]
  · cases hfound : stringMapLookup maps (stringMapIndex (stringPaddedLen evt.pathLen)) id evt.path
        (safePathAccess off)
    · cases maps.policySettings id with
      | none => simp [hver, hfound, h.copyRead, Outcome.record]
      | some st =>
        simp [hver, hfound, h.copyRead, record_reportViolation h.ringbufOutput, copyExecPath]
    · cases maps.policySettings id <;> simp [hver, hfound, Outcome.record]

theorem safePathAccess_u32Sub {n : Nat} (h₁ : 1 ≤ n) (h₂ : n ≤ 8192) :
    safePathAccess (u32Sub 8192 n) = 8192 - n := by
  rw [safePathAccess_eq]
  unfold u32Sub
  omega

theorem copyExecPath_u32Sub {evt : ProcessEvt} (h₁ : 1 ≤ evt.pathLen) (h₂ : evt.pathLen ≤ 4096) :
    copyExecPath evt (u32Sub 8192 evt.pathLen)
      = { evt with path := copiedPath evt.path evt.pathLen } := by
  rw [copyExecPath, safePathAccess_u32Sub h₁ (by omega), copiedPath]

variable {file : File} {links : List (Option Bytes)} {fin : Addr}

/-- **The record of an exec whose path is resolved.** -/
theorem record_of_resolved (h : Reaches x maps) (hx : OnChain x file links fin)
    (hres : Resolves x links) (hlen : (fullPath x.mem file.dentry links fin).length ≤ 4096)
    (evt : ProcessEvt) :
    let P := fullPath x.mem file.dentry links fin
    ∃ buf, buf.window (8192 - P.length) P.length = P ∧
      (∀ i, i < 8192 - P.length ∨ 8192 ≤ i → buf i = evt.path i) ∧
      (enforceCgroupPolicy x maps evt).record =
        if reported x maps buf (8192 - P.length) P.length then
          some (evtRecord (submitted x maps buf P.length) (19 + safePathLen P.length))
        else none := by
  intro P
  have h₁ : 1 ≤ P.length := one_le_length_fullPath ..
  have h₂ : P.length ≤ 4096 := hlen
  have hoff : u32Sub 8192 P.length ≠ 0 := by unfold u32Sub; omega
  have hacc : safePathAccess (u32Sub 8192 P.length) = 8192 - P.length :=
    safePathAccess_u32Sub h₁ (by omega)
  have hmod : P.length % 2 ^ 16 = P.length := Nat.mod_eq_of_lt (by omega)
  cases hid : maps.cgToPolicy.lookup (getTrackerIdFromCurrTask maps x) with
  | none =>
    obtain ⟨buf, hbuf, hpop⟩ := populateEvtWithPath_resolved hx h.dentryRead hres
      { evt with cgTrackerId := getTrackerIdFromCurrTask maps x, mode := 0, foreign := 0 }
    rw [if_neg (show P.length ≠ 8192 by omega), show (fullPath x.mem file.dentry links fin).length
      % 2 ^ 16 = P.length from hmod] at hpop
    refine ⟨buf, (hbuf (by omega)).1, (hbuf (by omega)).2, ?_⟩
    unfold enforceCgroupPolicy reported
    simp only [if_neg h.tracked, h.workload, hid, Bool.false_eq_true, if_false, h.native hid]
    unfold reportLearning
    cases hl : x.conf.learningEnabled with
    | false => simp [Outcome.record]
    | true =>
      simp only [Bool.not_true, h.evtLookup, Bool.false_eq_true, if_false, hpop]
      rw [if_neg hoff]
      simp only [h.copyRead, h.ringbufOutput, if_true, Outcome.record, Option.some_or,
        Bool.not_true, Bool.false_eq_true, if_false]
      congr 2
      refine (copyExecPath_u32Sub h₁ h₂).trans ?_
      simp [submitted, modeByte, settingsFor, hid, h.native hid]
  | some id =>
    have hj : Judged x maps id := ⟨h.tracked, hid, h.workload, h.evtLookup⟩
    obtain ⟨buf, hbuf, hpop⟩ :=
      populateEvtWithPath_resolved hx h.dentryRead hres (startEvt x maps evt)
    rw [if_neg (show P.length ≠ 8192 by omega), show (fullPath x.mem file.dentry links fin).length
      % 2 ^ 16 = P.length from hmod] at hpop
    refine ⟨buf, (hbuf (by omega)).1, (hbuf (by omega)).2, ?_⟩
    have hcopy : copyExecPath { startEvt x maps evt with path := buf, pathLen := P.length }
        (u32Sub 8192 P.length) = _ := copyExecPath_u32Sub h₁ h₂
    rw [enforceCgroupPolicy_judged hj hpop, if_neg hoff]
    unfold reported
    simp only [hid]
    cases hf : execIsForeignRoot x with
    | true =>
      rw [if_pos rfl, record_judgeForeign h, hcopy]
      cases hst : maps.policySettings id with
      | none => rfl
      | some st => simp [submitted, modeByte, settingsFor, hid, hst, hf, startEvt]
    | false =>
      rw [if_neg (by simp), record_judgeListed h, hcopy, hacc]
      cases hst : maps.policySettings id with
      | none => rfl
      | some st => simp [submitted, modeByte, settingsFor, hid, hst, hf, startEvt]

end

/-! ## Decoding it -/

theorem processRingbufEvent_evtRecord {evt : ProcessEvt} (h₁ : evt.cgTrackerId < 2 ^ 64)
    (h₂ : evt.pathLen ≤ 4096) {n : Nat} (hn : 12 < n) {mode : String}
    (hm : evt.mode = 0 ∧ mode = "" ∨
      ∃ m : Mode, Mode.fromUint8 evt.mode = some m ∧ mode = m.string) :
    processRingbufEvent (evtRecord evt n) = .event {
      cgTrackerID := evt.cgTrackerId
      exePath := (evt.path.window 0 (n - 12) ++ List.replicate evt.pathLen 0).take evt.pathLen
      mode := mode
      foreignRoot := evt.foreign ≠ 0 } := by
  have hrest : evt.path.window 0 (n - 12) ≠ [] := by
    intro h
    have := congrArg List.length h
    simp at this
    omega
  unfold processRingbufEvent
  rw [readHeader_evtRecord h₁ (by omega)]
  simp only [bufRead_eq hrest, if_neg (Nat.not_lt.mpr h₂)]
  rcases hm with ⟨h0, rfl⟩ | ⟨m, hm, rfl⟩
  · simp [h0]
  · have h0 : evt.mode ≠ 0 := by
      intro h0
      rw [h0, show Mode.fromUint8 0 = none from rfl] at hm
      exact absurd hm (by simp)
    simp [h0, hm]

theorem stringMapLookup_congr {maps : BpfMaps} {index : Int} {id : PolicyID} {b b' : Buffer}
    {pos : Nat} (h : ∀ j, pos ≤ j → j < pos + 4096 → b j = b' j) :
    stringMapLookup maps index id b pos = stringMapLookup maps index id b' pos := by
  have hwin : ∀ i, b.window pos (stringMapsSizes i) = b'.window pos (stringMapsSizes i) := fun i =>
    Buffer.window_congr fun j h₁ h₂ => h j h₁ (by
      have := stringMapsSizes_le i
      unfold maxStringMapsSize at this
      omega)
  unfold stringMapLookup
  simp only [hwin]

theorem reported_congr {x : Exec} {maps : BpfMaps} {b b' : Buffer} {pos len : Nat}
    (h : ∀ j, pos ≤ j → j < pos + 4096 → b j = b' j) :
    reported x maps b pos len = reported x maps b' pos len := by
  unfold reported
  simp only [stringMapLookup_congr h]

/-- The mode of the decoded event: empty for learning, that of the policy for a violation. -/
def eventMode (x : Exec) (maps : BpfMaps) : String :=
  (settingsFor x maps).elim "" fun st => (Mode.fromUint8 st.mode).elim "" Mode.string

/-- The event userspace should see. -/
def expectedEvent (x : Exec) (maps : BpfMaps) (P : Bytes) : ProcessEvent where
  cgTrackerID := getTrackerIdFromCurrTask maps x
  exePath := P
  mode := eventMode x maps
  foreignRoot := execIsForeignRoot x

section

variable {x : Exec} {maps : BpfMaps} {buf : Buffer} {P : Bytes}

theorem window_copiedPath (hw : buf.window (8192 - P.length) P.length = P)
    (h : P.length ≤ 4094) : (copiedPath buf P.length).window 0 P.length = P := by
  have hmask : safePathLen (P.length + 1) = P.length + 1 := by rw [safePathLen_eq]; omega
  have hall := Buffer.window_write buf 0 (buf.window (8192 - P.length) (P.length + 1))
  rw [Buffer.length_window, Buffer.window_add, Buffer.window_add _ (8192 - P.length), hw] at hall
  unfold copiedPath
  rw [hmask, Buffer.window_add _ (8192 - P.length), hw]
  exact (List.append_inj hall (by simp)).1

/-- At 4095 bytes the copy is masked to nothing. -/
theorem copiedPath_4095 (h : P.length = 4095) : copiedPath buf P.length = buf := by
  have hmask : safePathLen (P.length + 1) = 0 := by rw [safePathLen_eq, h]
  rw [copiedPath, hmask]
  exact Buffer.write_nil buf 0

theorem decode_submitted (htid : getTrackerIdFromCurrTask maps x < 2 ^ 64)
    (hmode : ∀ st, settingsFor x maps = some st → (Mode.fromUint8 st.mode).isSome)
    {len : Nat} (hlen : len ≤ 4096) :
    processRingbufEvent (evtRecord (submitted x maps buf len) (19 + safePathLen len))
      = .event (expectedEvent x maps
        (((copiedPath buf len).window 0 (7 + len % 4096) ++ List.replicate len 0).take len)) := by
  have hn : 19 + safePathLen len - 12 = 7 + len % 4096 := by rw [safePathLen_eq]; omega
  have hforeign : decide ((submitted x maps buf len).foreign ≠ 0) = execIsForeignRoot x := by
    unfold submitted
    cases execIsForeignRoot x <;> rfl
  have hm : (submitted x maps buf len).mode = 0 ∧ eventMode x maps = "" ∨
      ∃ m : Mode, Mode.fromUint8 (submitted x maps buf len).mode = some m ∧
        eventMode x maps = m.string := by
    unfold submitted modeByte eventMode
    cases hst : settingsFor x maps with
    | none => exact Or.inl ⟨rfl, rfl⟩
    | some st =>
      obtain ⟨m, hm⟩ := Option.isSome_iff_exists.mp (hmode st hst)
      exact Or.inr ⟨m, hm, by simp [hm]⟩
  rw [processRingbufEvent_evtRecord htid hlen (by omega) hm, hn, hforeign]
  rfl

theorem decoded_path_of_short (hw : buf.window (8192 - P.length) P.length = P)
    (h : P.length ≤ 4094) :
    ((copiedPath buf P.length).window 0 (7 + P.length % 4096)
      ++ List.replicate P.length 0).take P.length = P := by
  have hwin := window_copiedPath hw h
  rw [Nat.mod_eq_of_lt (by omega), Nat.add_comm 7, Buffer.window_add, hwin, List.append_assoc]
  exact List.take_left' rfl

theorem decoded_path_4095 (h : P.length = 4095) :
    ((copiedPath buf P.length).window 0 (7 + P.length % 4096)
      ++ List.replicate P.length 0).take P.length = buf.window 0 4095 := by
  rw [copiedPath_4095 h, h, show 7 + 4095 % 4096 = 4095 + 7 from rfl, Buffer.window_add,
    List.append_assoc]
  exact List.take_left' (by simp)

/-- From 4095 bytes on, something else: at 4095 the first byte is the stale one, at 4096 the eighth
is past the end of the record. -/
theorem decoded_path_of_long (hzero : buf 0 = 0) (hnul : 0 ∉ P) (h₁ : 4095 ≤ P.length)
    (h₂ : P.length ≤ 4096) :
    ((copiedPath buf P.length).window 0 (7 + P.length % 4096)
      ++ List.replicate P.length 0).take P.length ≠ P := by
  intro heq
  -- a NUL among the first eight bytes, either way
  suffices hbyte : ∃ i, i < P.length ∧ ((copiedPath buf P.length).window 0 (7 + P.length % 4096)
      ++ List.replicate P.length 0)[i]? = some 0 by
    obtain ⟨i, hi, hbyte⟩ := hbyte
    rw [← List.getElem?_take_of_lt hi, heq] at hbyte
    exact hnul (List.mem_of_getElem? hbyte)
  by_cases h : P.length = 4095
  · refine ⟨0, by omega, ?_⟩
    rw [← List.getElem?_take_of_lt (by omega : 0 < P.length), decoded_path_4095 h,
      Buffer.getElem?_window, if_pos (by omega), Nat.add_zero, hzero]
  · have h4096 : P.length = 4096 := by omega
    refine ⟨7, by omega, ?_⟩
    rw [List.getElem?_append_right (by simp [h4096]), List.getElem?_replicate,
      if_pos (by simp [h4096])]

/-- Two buffers with the same path at the end of the second segment, and the same third segment,
look the same from the path on. -/
theorem eq_from_path {buf' : Buffer} (hlen : P.length ≤ 8192)
    (hw : buf.window (8192 - P.length) P.length = P)
    (hw' : buf'.window (8192 - P.length) P.length = P)
    (hthird : ∀ j, 8192 ≤ j → buf j = buf' j) :
    ∀ j, 8192 - P.length ≤ j → buf j = buf' j := by
  intro j hj
  by_cases hlt : j < 8192
  · have hb := (Buffer.window_eq_iff rfl).mp hw (j - (8192 - P.length)) (by omega)
    have hb' := (Buffer.window_eq_iff rfl).mp hw' (j - (8192 - P.length)) (by omega)
    rw [hb, show 8192 - P.length + (j - (8192 - P.length)) = j by omega] at hb'
    exact Option.some.inj hb'
  · exact hthird j (by omega)

variable {file : File} {links : List (Option Bytes)} {fin : Addr}

/-- **When the decoded event is right.** For an exec the hook reports, whatever earlier execs left
in the first segment. -/
theorem decodes_iff (h : Reaches x maps) (hx : OnChain x file links fin) (hres : Resolves x links)
    (hlen : (fullPath x.mem file.dentry links fin).length ≤ 4096)
    (hnul : 0 ∉ fullPath x.mem file.dentry links fin)
    (htid : getTrackerIdFromCurrTask maps x < 2 ^ 64)
    (hmode : ∀ st, settingsFor x maps = some st → (Mode.fromUint8 st.mode).isSome)
    {evt : ProcessEvt} (hrec : (enforceCgroupPolicy x maps evt).record.isSome) :
    (∀ seg, ∃ r, (enforceCgroupPolicy x maps (evt.stale seg)).record = some r ∧
      processRingbufEvent r
        = .event (expectedEvent x maps (fullPath x.mem file.dentry links fin))) ↔
    (fullPath x.mem file.dentry links fin).length ≤ 4094 := by
  let P := fullPath x.mem file.dentry links fin
  have h₂ : P.length ≤ 4096 := hlen
  obtain ⟨buf, hw, hf, hr⟩ := record_of_resolved h hx hres hlen evt
  have hrep : reported x maps buf (8192 - P.length) P.length = true := by
    rw [hr] at hrec
    by_contra hnot
    rw [if_neg hnot] at hrec
    exact absurd hrec (by simp)
  -- the first segment plays no part in the walk or in the lookup
  have hseg : ∀ seg, ∃ buf', buf'.window (8192 - P.length) P.length = P ∧ buf' 0 = seg 0 ∧
      (enforceCgroupPolicy x maps (evt.stale seg)).record
        = some (evtRecord (submitted x maps buf' P.length) (19 + safePathLen P.length)) := by
    intro seg
    obtain ⟨buf', hw', hf', hr'⟩ := record_of_resolved h hx hres hlen (evt.stale seg)
    have hsame : reported x maps buf' (8192 - P.length) P.length = true := by
      rw [← hrep]
      have hthird : ∀ j, 8192 ≤ j → buf' j = buf j := fun j hj => by
        rw [hf j (Or.inr hj), hf' j (Or.inr hj)]
        exact if_neg (by omega)
      exact reported_congr fun j hj _ => eq_from_path (by omega) hw' hw hthird j hj
    refine ⟨buf', hw', ?_, by rw [hr', if_pos hsame]⟩
    rw [hf' 0 (Or.inl (by omega))]
    rfl
  constructor
  · intro hall
    by_contra hlong
    obtain ⟨buf', _, h0, hr'⟩ := hseg fun _ => 0
    obtain ⟨r, hr₁, hdec⟩ := hall fun _ => 0
    rw [hr', Option.some.injEq] at hr₁
    rw [← hr₁, decode_submitted htid hmode h₂, Decoded.event.injEq] at hdec
    exact decoded_path_of_long h0 hnul (by omega) h₂ (congrArg ProcessEvent.exePath hdec)
  · intro hshort seg
    obtain ⟨buf', hw', _, hr'⟩ := hseg seg
    refine ⟨_, hr', ?_⟩
    rw [decode_submitted htid hmode h₂, decoded_path_of_short hw' hshort]

theorem decodes_stale (h : Reaches x maps) (hx : OnChain x file links fin)
    (hres : Resolves x links) (hlen : (fullPath x.mem file.dentry links fin).length = 4095)
    (htid : getTrackerIdFromCurrTask maps x < 2 ^ 64)
    (hmode : ∀ st, settingsFor x maps = some st → (Mode.fromUint8 st.mode).isSome)
    {evt : ProcessEvt} (hrec : (enforceCgroupPolicy x maps evt).record.isSome) :
    ∃ r, (enforceCgroupPolicy x maps evt).record = some r ∧
      processRingbufEvent r = .event (expectedEvent x maps (evt.path.window 0 4095)) := by
  obtain ⟨buf, _, hf, hr⟩ := record_of_resolved h hx hres (by omega) evt
  have hfirst : buf.window 0 4095 = evt.path.window 0 4095 :=
    Buffer.window_congr fun i _ hi => hf i (Or.inl (by omega))
  rw [hr] at hrec ⊢
  split at hrec
  case isTrue hrep =>
    refine ⟨_, if_pos hrep, ?_⟩
    rw [decode_submitted htid hmode (by omega), decoded_path_4095 hlen, hfirst]
  case isFalse => exact absurd hrec (by simp)

end

/-! ## Learning `/a`, and a path of 4095 bytes -/

def learnMaps : BpfMaps := BpfMaps.empty.setCgtracker 7 7

theorem reaches_branchExec (name : Bytes) (j : Nat) : Reaches (branchExec name j 7) learnMaps :=
  ⟨fun h => absurd (show 7 = 0 from h) (by decide), rfl, rfl, rfl, rfl, rfl,
    fun _ => execIsForeignRoot_branchExec name j 7⟩

theorem settingsFor_learnMaps (name : Bytes) (j : Nat) (st : PolicySettings) :
    settingsFor (branchExec name j 7) learnMaps = some st → (Mode.fromUint8 st.mode).isSome := by
  intro h
  have hnone : settingsFor (branchExec name j 7) learnMaps = none := rfl
  exact absurd (hnone.symm.trans h) (by simp)

theorem decodes_short : ∃ r,
    (enforceCgroupPolicy (branchExec [0x61] 1 7) learnMaps
      (zeroEvt.stale fun _ => 0x7a)).record = some r ∧
    processRingbufEvent r = .event (expectedEvent (branchExec [0x61] 1 7) learnMaps
      (fullPath (branchMem [0x61]) 2112 [some [0x61]] 2048)) :=
  (decodes_iff (reaches_branchExec [0x61] 1) (onChain_branchExec (by decide) 1 7) (by decide)
    (by decide) (by decide) (by decide) (settingsFor_learnMaps _ _)
    (show (enforceCgroupPolicy _ _ zeroEvt).record.isSome by rfl)).mpr (by decide) _

def name194 : Bytes := List.replicate 194 0x61

def path4095 : Bytes :=
  fullPath (branchMem name194) (2048 + 64 * 21) (List.replicate 21 (some name194)) 2048

theorem length_path4095 : path4095.length = 4095 := by
  rw [path4095, fullPath_branchMem _ (by decide), length_joinNames, namesLen_replicate, name194,
    List.length_replicate]

theorem record_isSome_branchExec {name : Bytes} (hn : NameOk name) {j : Nat}
    (hres : Resolves (branchExec name j 7) (List.replicate j (some name)))
    (hlen : (fullPath (branchMem name) (2048 + 64 * j) (List.replicate j (some name)) 2048).length
      ≤ 4096) (evt : ProcessEvt) :
    (enforceCgroupPolicy (branchExec name j 7) learnMaps evt).record.isSome := by
  obtain ⟨buf, _, _, hr⟩ :=
    record_of_resolved (reaches_branchExec name j) (onChain_branchExec hn j 7) hres hlen evt
  rw [hr, if_pos (show reported (branchExec name j 7) learnMaps _ _ _ = true from rfl)]
  rfl

/-- A CPU runs `/z`, and then a file whose path has 4095 bytes and no `z` in it, in a container that
learns: the event of the second exec carries the `z` of the first. -/
theorem stale_path_decoded :
    path4095.length = 4095 ∧ 0x7a ∉ path4095 ∧ ∃ r e,
      (enforceCgroupPolicy (branchExec name194 21 7) learnMaps
        (enforceCgroupPolicy (branchExec [0x7a] 1 7) learnMaps zeroEvt).evt).record = some r ∧
      processRingbufEvent r = .event e ∧ 0x7a ∈ e.exePath := by
  have hname : name194.length = 194 := List.length_replicate
  have hok : NameOk name194 := by unfold NameOk; omega
  have hres : Resolves (branchExec name194 21 7) (List.replicate 21 (some name194)) := by
    unfold Resolves; rw [List.length_replicate]; decide
  obtain ⟨r, hr, hdec⟩ := decodes_stale (reaches_branchExec name194 21)
    (onChain_branchExec hok 21 7) hres length_path4095 (by decide) (settingsFor_learnMaps _ _)
    (record_isSome_branchExec hok hres (length_path4095.trans_le (by decide))
      (enforceCgroupPolicy (branchExec [0x7a] 1 7) learnMaps zeroEvt).evt)
  refine ⟨length_path4095, fun hmem => ?_, r, _, hr, hdec, ?_⟩
  · rw [path4095, fullPath_branchMem _ (by decide)] at hmem
    rcases mem_joinNames hmem with h | ⟨n, hn, h⟩
    · exact absurd h (by decide)
    · rw [List.eq_of_mem_replicate hn] at h
      exact absurd (List.eq_of_mem_replicate h) (by decide)
  · have hz : (enforceCgroupPolicy (branchExec [0x7a] 1 7) learnMaps zeroEvt).evt.path (0 + 1)
        = 0x7a := by decide
    refine List.mem_of_getElem? (i := 1) ?_
    rw [expectedEvent, Buffer.getElem?_window, if_pos (by decide), hz]

end RuntimeEnforcer.Hook
