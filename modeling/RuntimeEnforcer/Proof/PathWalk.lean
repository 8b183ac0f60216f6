import RuntimeEnforcer.Bpf.Enforce

/-!
# What the walk does on a chain

`bpf_d_path_approx` on a file whose dentry has a chain up to the global root. Three things are
kept apart here:

* the walk visits the links of the chain in order and stops at the root or at the iteration
  bound, so what it lays down is the names among the first links (`repeatPathRead_chain`);
* the offset it ends at is the start less the bytes laid, in `u32` arithmetic
  (`layNames_off`), whatever the buffer holds;
* as long as the bytes fit below the start, the buffer holds the joined path there and is
  untouched elsewhere (`layNames_fits`).

`populateEvtWithPath_resolved` and `_unresolved` are what the hook's proofs use.
-/

set_option autoImplicit false

namespace RuntimeEnforcer.Hook

open Lib

/-! ## Laying names -/

variable {off : Nat} {name : Bytes}

/-- Lay the names down, one in front of the other. -/
def layNames : List Bytes → Buffer → Nat → Buffer × Nat
  | [], buf, off => (buf, off)
  | name :: names, buf, off => layNames names (layName buf off name).1 (layName buf off name).2

theorem layName_off (buf : Buffer) (off : Nat) (name : Bytes) :
    (layName buf off name).2 = u32Sub off (name.length + 1) := rfl

theorem layNames_off (names : List Bytes) (buf : Buffer) (h : off < 2 ^ 32) :
    (layNames names buf off).2 = u32Sub off (namesLen names) := by
  induction names generalizing buf off with
  | nil => simp [layNames, namesLen, u32Sub]; omega
  | cons name names ih =>
    rw [layNames, ih _ (by rw [layName_off, u32Sub]; omega), layName_off, u32Sub_u32Sub, namesLen]
    congr 1
    omega

@[simp] theorem length_joinNames (names : List Bytes) :
    (joinNames names).length = namesLen names := by
  induction names with
  | nil => rfl
  | cons name names ih => simp [joinNames, namesLen, ih]

theorem mem_joinNames {names : List Bytes} {b : UInt8} (h : b ∈ joinNames names) :
    b = slash ∨ ∃ name ∈ names, b ∈ name := by
  induction names with
  | nil => exact absurd h (by simp [joinNames])
  | cons name names ih =>
    simp only [joinNames, List.mem_append, List.mem_cons] at h
    rcases h with h | h | h
    · rcases ih h with h | ⟨n, hn, hb⟩
      · exact Or.inl h
      · exact Or.inr ⟨n, List.mem_cons_of_mem _ hn, hb⟩
    · exact Or.inl h
    · exact Or.inr ⟨name, by simp, h⟩

theorem layName_fits (buf : Buffer) (hn : NameOk name) (h₁ : name.length + 1 ≤ off)
    (h₂ : off ≤ 8192) :
    (layName buf off name).2 = off - (name.length + 1) ∧
    (layName buf off name).1.window (off - (name.length + 1)) (name.length + 1) = slash :: name ∧
    ∀ i, i < off - (name.length + 1) ∨ off ≤ i → (layName buf off name).1 i = buf i := by
  have hoff : u32Sub off (name.length + 1) = off - (name.length + 1) := u32Sub_of_le h₁ (by omega)
  have ha : safePathAccess (off - (name.length + 1)) = off - (name.length + 1) := by
    rw [safePathAccess_eq]; omega
  have ha' : safePathAccess ((off - (name.length + 1) + 1) % 2 ^ 32) = off - name.length := by
    have := hn.1
    rw [safePathAccess_eq]; omega
  have hc : name.take (safeComponentAccess name.length) = name := by
    rw [safeComponentAccess_eq, Nat.mod_eq_of_lt (by have := hn.2; omega), List.take_length]
  have hbuf : (layName buf off name).1 =
      (buf.write (off - (name.length + 1)) [slash]).write (off - name.length) name := by
    simp only [layName, hoff, ha, ha', hc]
  refine ⟨by rw [layName_off, hoff], ?_, fun i hi => ?_⟩
  · have hsplit : off - name.length = off - (name.length + 1) + 1 := by omega
    rw [hbuf, Nat.add_comm name.length 1, Buffer.window_add, Nat.add_comm 1 name.length, ← hsplit,
      Buffer.window_write, Buffer.window_write_below (by omega)]
    exact congrArg (· ++ name) (Buffer.window_write buf _ [slash])
  · rw [hbuf]
    rcases hi with hi | hi
    · rw [Buffer.write_below (by omega), Buffer.write_below (by omega)]
    · rw [Buffer.write_above (by omega), Buffer.write_above (by simp; omega)]

theorem layNames_fits {names : List Bytes} (hn : ∀ name ∈ names, NameOk name) (buf : Buffer)
    (h₁ : namesLen names ≤ off) (h₂ : off ≤ 8192) :
    (layNames names buf off).2 = off - namesLen names ∧
    (layNames names buf off).1.window (off - namesLen names) (namesLen names) = joinNames names ∧
    ∀ i, i < off - namesLen names ∨ off ≤ i → (layNames names buf off).1 i = buf i := by
  induction names generalizing buf off with
  | nil => exact ⟨rfl, rfl, fun _ _ => rfl⟩
  | cons name names ih =>
    have hlen : namesLen (name :: names) = namesLen names + (name.length + 1) := rfl
    obtain ⟨ho, hw, hf⟩ := layName_fits buf (hn name (by simp)) (by omega) h₂
    have hroom : namesLen names ≤ (layName buf off name).2 := by omega
    obtain ⟨ho', hw', hf'⟩ := ih (fun n h => hn n (List.mem_cons_of_mem _ h))
      (layName buf off name).1 hroom (by omega)
    rw [layNames, hlen]
    have hstart : off - (namesLen names + (name.length + 1))
        = (layName buf off name).2 - namesLen names := by omega
    refine ⟨by rw [ho', hstart], ?_, fun i hi => ?_⟩
    · rw [hstart, Buffer.window_add, hw', joinNames,
        show (layName buf off name).2 - namesLen names + namesLen names
          = (layName buf off name).2 by omega]
      congr 1
      rw [← hw, ← ho]
      -- the later names end where this one starts
      exact Buffer.window_congr fun i hi _ => hf' i (Or.inr hi)
    · rw [hf' i (by omega), hf i (by omega)]

/-! ## The links of a chain -/

variable {links : List (Option Bytes)}

theorem mem_namesOf : name ∈ namesOf links ↔ some name ∈ links := by
  unfold namesOf
  exact List.reduceOption_mem_iff

section

variable {k : KMem} {d m fin : Addr} {links : List (Option Bytes)}

theorem Trail.names {d' m' : Addr} (h : Trail k d m links d' m') :
    ∀ name ∈ namesOf links, NameOk name := by
  intro name hname
  rw [mem_namesOf] at hname
  induction h with
  | here => exact absurd hname (by simp)
  | crossMount _ _ _ _ ih => exact ih (by simpa using hname)
  | component _ _ hn _ ih =>
    rcases List.mem_cons.mp hname with h | h
    · exact Option.some.inj h ▸ hn
    · exact ih h

theorem Chain.nameOk_fin (h : Chain k d m links fin) : NameOk (k.dName fin) := by
  obtain ⟨gm, ht, _⟩ := h.trail
  exact h.named links fin gm (List.prefix_refl links) ht

theorem Chain.names (h : Chain k d m links fin) : ∀ name ∈ namesOf links, NameOk name := by
  obtain ⟨gm, ht, _⟩ := h.trail
  exact ht.names

theorem Chain.globalRoot (hg : GlobalRoot k d m) (hn : NameOk (k.dName d)) : Chain k d m [] d where
  trail := ⟨m, .here, hg⟩
  named before d' m' hbefore ht := by
    obtain rfl := List.prefix_nil.mp hbefore
    cases ht
    exact hn

theorem Chain.component (hd : k.isDentry d = true) (hr : ¬ AtMountRoot k d m)
    (hn : NameOk (k.dName d)) (next : Chain k (k.dParent d) m links fin) :
    Chain k d m (some (k.dName d) :: links) fin where
  trail := by
    obtain ⟨gm, ht, hg⟩ := next.trail
    exact ⟨gm, .component hd hr hn ht, hg⟩
  named before d' m' hbefore ht := by
    cases ht with
    | here => exact hn
    | crossMount _ hr' _ _ => exact absurd hr' hr
    | component _ _ _ ht =>
      exact next.named _ d' m' (List.cons_prefix_cons.mp hbefore).2 ht

end

theorem namesLen_le {names : List Bytes} (h : ∀ name ∈ names, NameOk name) :
    namesLen names ≤ 256 * names.length := by
  induction names with
  | nil => simp [namesLen]
  | cons name names ih =>
    have h₁ := (h name (by simp)).2
    have h₂ := ih fun n hn => h n (List.mem_cons_of_mem _ hn)
    simp only [namesLen, List.length_cons]
    omega

theorem length_namesOf_le (links : List (Option Bytes)) :
    (namesOf links).length ≤ links.length := List.reduceOption_length_le links

/-! ## The walk -/

variable {fin dentry : Addr} {k : KMem}

/-- The walk is at dentry `d` on mount `m`, and its stored root is not a dentry. -/
structure PathReadData.At (k : KMem) (data : PathReadData) (d m : Addr) : Prop where
  dentry : data.dentry = d
  mnt : data.mnt = m
  vfsmnt : data.vfsmnt = vfsmountOf m
  root : k.isDentry data.rootDentry = false

section

variable {k : KMem} {data : PathReadData} {d m : Addr}

variable (h : data.At k d m)

include h

/-- The first test of `path_read` never succeeds on a chain. -/
theorem PathReadData.At.not_root (hd : k.isDentry d = true) :
    (data.dentry == data.rootDentry && data.vfsmnt == data.rootMnt) = false := by
  have hne : data.dentry ≠ data.rootDentry := by
    intro heq
    rw [← h.dentry, heq, h.root] at hd
    exact absurd hd (by simp)
  simp [hne]

theorem PathReadData.At.at_root_iff :
    (data.dentry == k.mntRoot data.vfsmnt || isRoot k data.dentry) = true ↔ AtMountRoot k d m := by
  rw [h.dentry, h.vfsmnt]
  simp [isRoot, AtMountRoot]

theorem pathRead_globalRoot (hd : k.isDentry d = true) (hr : AtMountRoot k d m)
    (hm : k.mntParent m = m) : pathRead k data = (true, { data with resolved := true }) := by
  unfold pathRead
  rw [h.not_root hd, if_neg (by simp), if_pos (h.at_root_iff.mpr hr), h.mnt, hm]
  simp

theorem pathRead_crossMount (hd : k.isDentry d = true) (hr : AtMountRoot k d m)
    (hm : k.mntParent m ≠ m) :
    ∃ data', pathRead k data = (false, data') ∧ data'.At k (k.mntMountpoint m) (k.mntParent m) ∧
      data'.bptr = data.bptr ∧ data'.currOff = data.currOff ∧ data'.resolved = data.resolved := by
  refine ⟨{ data with dentry := k.mntMountpoint m, mnt := k.mntParent m,
                      vfsmnt := vfsmountOf (k.mntParent m) },
    ?_, ⟨rfl, rfl, rfl, h.root⟩, rfl, rfl, rfl⟩
  unfold pathRead
  rw [h.not_root hd, if_neg (by simp), if_pos (h.at_root_iff.mpr hr), h.mnt]
  simp [Ne.symm hm]

theorem pathRead_component (hd : k.isDentry d = true) (hr : ¬ AtMountRoot k d m) :
    ∃ data', pathRead k data = (false, data') ∧ data'.At k (k.dParent d) m ∧
      data'.bptr = (layName data.bptr data.currOff (k.dName d)).1 ∧
      data'.currOff = (layName data.bptr data.currOff (k.dName d)).2 ∧
      data'.resolved = data.resolved := by
  refine ⟨{ copyName k data d with dentry := k.dParent d },
    ?_, ⟨rfl, h.mnt, h.vfsmnt, h.root⟩, rfl, rfl, rfl⟩
  unfold pathRead
  rw [h.not_root hd, if_neg (by simp), if_neg (fun hc => hr (h.at_root_iff.mp hc)), h.dentry]

theorem repeatPathRead_zero (hn : NameOk (k.dName d)) :
    ((repeatPathRead k 0 data).bptr, (repeatPathRead k 0 data).currOff)
      = layNames (namesOf (links.take 0)) data.bptr data.currOff ∧
    (repeatPathRead k 0 data).resolved = (data.resolved || decide (links.length + 1 ≤ 0)) ∧
    (links.length + 1 ≤ 0 → (repeatPathRead k 0 data).dentry = fin) ∧
    NameOk (k.dName (repeatPathRead k 0 data).dentry) := by
  refine ⟨rfl, by simp [repeatPathRead], by simp, ?_⟩
  rw [repeatPathRead, h.dentry]
  exact hn

end

/-- **The walk.** On a chain, `n` rounds lay the names among the first `n` links, and resolve the
path when there is a round left for the root. -/
theorem repeatPathRead_chain {d m : Addr} (hc : Chain k d m links fin) (n : Nat)
    {data : PathReadData} (h : data.At k d m) :
    ((repeatPathRead k n data).bptr, (repeatPathRead k n data).currOff)
      = layNames (namesOf (links.take n)) data.bptr data.currOff ∧
    (repeatPathRead k n data).resolved = (data.resolved || decide (links.length + 1 ≤ n)) ∧
    (links.length + 1 ≤ n → (repeatPathRead k n data).dentry = fin) ∧
    NameOk (k.dName (repeatPathRead k n data).dentry) := by
  obtain ⟨gm, ht, hg⟩ := hc.trail
  have hnamed := hc.named
  clear hc
  induction ht generalizing n data with
  | @here d m =>
    have hn : NameOk (k.dName d) := hnamed [] d m (List.prefix_refl []) .here
    cases n with
    | zero => exact repeatPathRead_zero h hn
    | succ n =>
      have hstep : repeatPathRead k (n + 1) data = { data with resolved := true } := by
        rw [repeatPathRead, pathRead_globalRoot h hg.dentry hg.root hg.parent]
      rw [hstep]
      exact ⟨rfl, by simp, fun _ => h.dentry, by rw [h.dentry]; exact hn⟩
  | @crossMount d m fin gm links hd hr hm next ih =>
    have hn : NameOk (k.dName d) := hnamed [] d m (List.nil_prefix) .here
    have hnext := fun before d' m' hbefore ht =>
      hnamed (none :: before) d' m' (List.cons_prefix_cons.mpr ⟨rfl, hbefore⟩)
        (.crossMount hd hr hm ht)
    cases n with
    | zero => exact repeatPathRead_zero h hn
    | succ n =>
      obtain ⟨data', hp, hat, hb, ho, hres⟩ := pathRead_crossMount h hd hr hm
      have hstep : repeatPathRead k (n + 1) data = repeatPathRead k n data' := by
        rw [repeatPathRead, hp]
      obtain ⟨h₁, h₂, h₃, h₄⟩ := ih n hat hg hnext
      rw [hstep]
      refine ⟨by rw [h₁, hb, ho]; rfl, by rw [h₂, hres]; simp, fun hl => h₃ ?_, h₄⟩
      simpa using hl
  | @component d m fin gm links hd hr hn next ih =>
    have hnext := fun before d' m' hbefore ht =>
      hnamed (some (k.dName d) :: before) d' m' (List.cons_prefix_cons.mpr ⟨rfl, hbefore⟩)
        (.component hd hr hn ht)
    cases n with
    | zero => exact repeatPathRead_zero h hn
    | succ n =>
      obtain ⟨data', hp, hat, hb, ho, hres⟩ := pathRead_component h hd hr
      have hstep : repeatPathRead k (n + 1) data = repeatPathRead k n data' := by
        rw [repeatPathRead, hp]
      obtain ⟨h₁, h₂, h₃, h₄⟩ := ih n hat hg hnext
      rw [hstep]
      refine ⟨by rw [h₁, hb, ho]; rfl, by rw [h₂, hres]; simp, fun hl => h₃ ?_, h₄⟩
      simpa using hl

/-- The names laid down in all: those of the walk, or for a file without any, such as a memfd, that
of the dentry `d` the walk ended at. -/
def laidNames (k : KMem) (dentry : Addr) (names : List Bytes) (d : Addr) : List Bytes :=
  if dUnlinked k dentry = false ∧ names = [] then [k.dName d] else names

theorem startOff_eq (k : KMem) (dentry : Addr) :
    startOff k dentry = if dUnlinked k dentry then 8182 else 8192 := by
  unfold startOff
  split <;> rfl

theorem namesLen_eq_zero_iff {names : List Bytes} : namesLen names = 0 ↔ names = [] := by
  cases names with
  | nil => simp [namesLen]
  | cons name names => simp [namesLen]

theorem namesLen_take_le {d m : Addr} (hc : Chain k d m links fin) (iterNum : Bool) :
    namesLen (namesOf (links.take (iterationBound iterNum))) ≤ 256 * 2048 := by
  have hbound : iterationBound iterNum ≤ 2048 := by unfold iterationBound; split <;> decide
  have htake := List.length_take_le (iterationBound iterNum) links
  have hnames := length_namesOf_le (links.take (iterationBound iterNum))
  refine (namesLen_le fun name hname => ?_).trans (by omega)
  exact hc.names name (mem_namesOf.mpr (List.mem_of_mem_take (mem_namesOf.mp hname)))

/-- With so few bytes laid, the counter is back at its start only when none were. -/
theorem u32Sub_startOff_eq_iff {names : List Bytes} (h : namesLen names ≤ 256 * 2048) :
    u32Sub (startOff k dentry) (namesLen names) = 8192 ↔
      dUnlinked k dentry = false ∧ names = [] := by
  rw [startOff_eq, ← namesLen_eq_zero_iff]
  unfold u32Sub
  cases dUnlinked k dentry <;> simp <;> omega

theorem length_pathBytes (k : KMem) (dentry : Addr) (names : List Bytes) :
    (pathBytes k dentry names).length = namesLen names + (8192 - startOff k dentry) := by
  rw [pathBytes, startOff_eq, List.length_append, length_joinNames]
  cases dUnlinked k dentry <;> rfl

/-- What the walk leaves in the buffer: the path right in front of the third segment, if there is
room for it, and nothing else. -/
theorem layNames_start {names : List Bytes} (hn : ∀ name ∈ names, NameOk name) (buf : Buffer)
    (hlen : (pathBytes k dentry names).length ≤ 8192) : let P := pathBytes k dentry names
    let laid := layNames names (startBuf k dentry buf) (startOff k dentry)
    laid.2 = 8192 - P.length ∧ laid.1.window (8192 - P.length) P.length = P ∧
    ∀ i, i < 8192 - P.length ∨ 8192 ≤ i → laid.1 i = buf i := by
  have hL := length_pathBytes k dentry names
  have hs := startOff_eq k dentry
  have hs' : startOff k dentry ≤ 8192 := by rw [hs]; split <;> omega
  have hroom : namesLen names ≤ startOff k dentry := by omega
  obtain ⟨ho, hw, hf⟩ := layNames_fits hn (startBuf k dentry buf) hroom hs'
  refine ⟨by rw [ho]; omega, ?_, fun i hi => ?_⟩
  · have hstart : 8192 - (namesLen names + (8192 - startOff k dentry))
        = startOff k dentry - namesLen names := by omega
    rw [hL, Buffer.window_add, hstart, hw, pathBytes]
    congr 1
    rw [Nat.sub_add_cancel (by omega), Buffer.window_congr fun i h _ => hf i (Or.inr h)]
    cases hu : dUnlinked k dentry with
    | true =>
      rw [startBuf, hu, if_pos rfl, hs, hu]
      exact Buffer.window_write buf 8182 deletedString
    | false => rw [hs, hu]; rfl
  · rw [hf i (by omega)]
    unfold startBuf
    split
    case isTrue hu =>
      rw [hu, if_pos rfl] at hs
      show buf.write 8182 deletedString i = buf i
      rcases hi with hi | hi
      · exact Buffer.write_below (by omega)
      · exact Buffer.write_above (by simpa [deletedString] using hi)
    case isFalse => rfl

theorem startOff_lt (k : KMem) (dentry : Addr) : startOff k dentry < 2 ^ 32 := by
  rw [startOff_eq]; split <;> omega

theorem copyMemfdName_spec {names : List Bytes} {buf : Buffer} {data : PathReadData}
    (hsmall : namesLen names ≤ 256 * 2048)
    (h : (data.bptr, data.currOff) = layNames names (startBuf k dentry buf) (startOff k dentry)) :
    ((copyMemfdName k data).bptr, (copyMemfdName k data).currOff)
      = layNames (laidNames k dentry names data.dentry) (startBuf k dentry buf)
        (startOff k dentry) := by
  have hoff : data.currOff = u32Sub (startOff k dentry) (namesLen names) := by
    rw [← layNames_off names (startBuf k dentry buf) (startOff_lt k dentry), ← h]
  unfold copyMemfdName laidNames
  by_cases hback : dUnlinked k dentry = false ∧ names = []
  · have h8192 : data.currOff = 8192 := hoff.trans ((u32Sub_startOff_eq_iff hsmall).mpr hback)
    rw [if_pos hback, if_pos (by simp [maxPathLen, h8192])]
    rw [hback.2, layNames, Prod.mk.injEq] at h
    rw [← h.1, ← h.2]
    rfl
  · have h8192 : ¬ data.currOff = 8192 := fun hc =>
      hback ((u32Sub_startOff_eq_iff hsmall).mp (hoff.symm.trans hc))
    rw [if_neg hback, if_neg (by simpa [maxPathLen] using h8192), h]

theorem copyMemfdName_resolved (k : KMem) (data : PathReadData) :
    (copyMemfdName k data).resolved = data.resolved := by
  unfold copyMemfdName
  split <;> rfl

theorem bpfDPathApprox_chain {mnt fs : Addr} (hc : Chain k dentry (containerOf mnt) links fin)
    (hmnt : vfsmountOf (containerOf mnt) = mnt)
    (hroot : k.isSuperBlock (k.pathDentry (k.fsRoot fs)) = true) (iterNum : Bool) (buf : Buffer) :
    ∃ d, NameOk (k.dName d) ∧ (links.length + 1 ≤ iterationBound iterNum → d = fin) ∧
      let laid := layNames (laidNames k dentry (namesOf (links.take (iterationBound iterNum))) d)
        (startBuf k dentry buf) (startOff k dentry)
      bpfDPathApprox k iterNum fs dentry mnt buf
        = (if links.length + 1 ≤ iterationBound iterNum then laid.2 else 0, laid.1) := by
  have hat : (startData k fs dentry mnt buf).At k dentry (containerOf mnt) := by
    refine ⟨rfl, rfl, hmnt.symm, ?_⟩
    by_contra hd
    have hnot := k.apart (k.pathDentry (k.fsRoot fs)) (by simpa [startData] using hd)
    exact absurd (hroot.symm.trans hnot) (by simp)
  obtain ⟨hlay, hres, hfin, hok⟩ := repeatPathRead_chain hc (iterationBound iterNum) hat
  refine ⟨_, hok, hfin, ?_⟩
  have hcopy := copyMemfdName_spec (namesLen_take_le hc iterNum) hlay
  have hres' : (startData k fs dentry mnt buf).resolved = false := rfl
  rw [hres', Bool.false_or] at hres
  simp only [bpfDPathApprox, ← hcopy, copyMemfdName_resolved, hres, decide_eq_true_eq]

/-! ## The path in the event -/

/-- The exec runs `file`, whose chain up to the global root is `links`. -/
structure OnChain (x : Exec) (file : File) (links : List (Option Bytes)) (fin : Addr) : Prop where
  file_eq : x.file = some file
  mount : vfsmountOf (containerOf file.mnt) = file.mnt
  chain : Chain x.mem file.dentry (containerOf file.mnt) links fin
  root : x.mem.isSuperBlock (x.mem.pathDentry (x.mem.fsRoot x.task.fs)) = true

/-- The walk reaches the root within the iteration bound. -/
def Resolves (x : Exec) (links : List (Option Bytes)) : Prop :=
  links.length + 1 ≤ iterationBound x.iterNum

instance (x : Exec) (links : List (Option Bytes)) : Decidable (Resolves x links) := by
  unfold Resolves; infer_instance

theorem fullPath_eq (k : KMem) (dentry : Addr) (links : List (Option Bytes)) (fin : Addr) :
    fullPath k dentry links fin =
      pathBytes k dentry (laidNames k dentry (namesOf links) fin) := by
  unfold fullPath laidNames pathBytes
  cases dUnlinked k dentry with
  | true => simp
  | false =>
    by_cases hnil : namesOf links = []
    · simp [hnil, joinNames]
    · simp [hnil]

theorem length_fullPath (k : KMem) (dentry : Addr) (links : List (Option Bytes)) (fin : Addr) :
    (fullPath k dentry links fin).length
      = namesLen (laidNames k dentry (namesOf links) fin) + (8192 - startOff k dentry) := by
  rw [fullPath_eq, length_pathBytes]

theorem one_le_length_fullPath (k : KMem) (dentry : Addr) (links : List (Option Bytes))
    (fin : Addr) : 1 ≤ (fullPath k dentry links fin).length := by
  rw [length_fullPath, startOff_eq]
  cases hu : dUnlinked k dentry with
  | true => simp
  | false =>
    by_cases hnil : namesOf links = []
    · simp [laidNames, hu, hnil, namesLen]
    · have hpos : namesLen (namesOf links) ≠ 0 := fun h => hnil (namesLen_eq_zero_iff.mp h)
      simp only [laidNames, hnil, and_false, if_false]
      omega

section

variable {x : Exec} {file : File} {links : List (Option Bytes)} {fin : Addr}

variable (hx : OnChain x file links fin)

include hx

theorem OnChain.laid_ok :
    ∀ name ∈ laidNames x.mem file.dentry (namesOf links) fin, NameOk name := by
  intro name hname
  unfold laidNames at hname
  split at hname
  · rw [List.mem_singleton.mp hname]
    exact hx.chain.nameOk_fin
  · exact hx.chain.names name hname

theorem OnChain.length_lt (hres : Resolves x links) :
    (fullPath x.mem file.dentry links fin).length < 2 ^ 32 := by
  have h₁ := namesLen_le hx.laid_ok
  have h₂ : (laidNames x.mem file.dentry (namesOf links) fin).length ≤ links.length + 1 := by
    have := length_namesOf_le links
    unfold laidNames
    split
    · simp
    · omega
  have h₃ : iterationBound x.iterNum ≤ 2048 := by unfold iterationBound; split <;> decide
  have h₄ : 8192 - startOff x.mem file.dentry ≤ 10 := by rw [startOff_eq]; split <;> omega
  unfold Resolves at hres
  rw [length_fullPath]
  omega

/-- What the walk leaves in the buffer when it resolves: the path right in front of the third
segment, if there is room for it, and nothing else. -/
theorem OnChain.laid_window (buf : Buffer)
    (hlen : (fullPath x.mem file.dentry links fin).length ≤ 8192) :
    let P := fullPath x.mem file.dentry links fin
    let laid := (layNames (laidNames x.mem file.dentry (namesOf links) fin)
      (startBuf x.mem file.dentry buf) (startOff x.mem file.dentry)).1
    laid.window (8192 - P.length) P.length = P ∧
    ∀ i, i < 8192 - P.length ∨ 8192 ≤ i → laid i = buf i := by
  rw [fullPath_eq] at hlen ⊢
  exact (layNames_start hx.laid_ok buf hlen).2

theorem populateEvtWithPath_unresolved (hread : x.probes.dentryRead = true)
    (hres : ¬ Resolves x links) (evt : ProcessEvt) :
    ∃ buf, populateEvtWithPath x evt = (0, { evt with path := buf }, [.failToResolvePath]) := by
  obtain ⟨d, _, _, hwalk⟩ := bpfDPathApprox_chain hx.chain hx.mount hx.root x.iterNum evt.path
  unfold Resolves at hres
  refine ⟨(bpfDPathApprox x.mem x.iterNum x.task.fs file.dentry file.mnt evt.path).2, ?_⟩
  unfold populateEvtWithPath
  simp only [hx.file_eq, hread, hwalk, if_neg hres]
  rfl

/-- `populate_evt_with_path` when the walk resolves. A path of exactly 8192 bytes ends at offset
0, which is the value for failure. -/
theorem populateEvtWithPath_resolved (hread : x.probes.dentryRead = true) (hres : Resolves x links)
    (evt : ProcessEvt) : let P := fullPath x.mem file.dentry links fin
    ∃ buf,
      (P.length ≤ 8192 → buf.window (8192 - P.length) P.length = P ∧
        ∀ i, i < 8192 - P.length ∨ 8192 ≤ i → buf i = evt.path i) ∧
      populateEvtWithPath x evt =
        if P.length = 8192 then (0, { evt with path := buf }, [.failToResolvePath])
        else
          (u32Sub 8192 P.length, { evt with path := buf, pathLen := P.length % 2 ^ 16 }, []) := by
  intro P
  obtain ⟨d, _, hd, hwalk⟩ := bpfDPathApprox_chain hx.chain hx.mount hx.root x.iterNum evt.path
  obtain rfl := hd hres
  have htake : links.take (iterationBound x.iterNum) = links :=
    List.take_of_length_le (by unfold Resolves at hres; omega)
  have hL : P.length = _ := length_fullPath x.mem file.dentry links d
  have hs : startOff x.mem file.dentry ≤ 8192 := by rw [startOff_eq]; split <;> omega
  have hlt : P.length < 2 ^ 32 := hx.length_lt hres
  have hge : 1 ≤ P.length := one_le_length_fullPath ..
  refine ⟨_, fun hle => hx.laid_window evt.path hle, ?_⟩
  have hoff : (layNames (laidNames x.mem file.dentry (namesOf links) d)
      (startBuf x.mem file.dentry evt.path) (startOff x.mem file.dentry)).2
        = u32Sub 8192 P.length := by
    rw [layNames_off _ _ (startOff_lt _ _)]
    unfold u32Sub
    omega
  rw [htake] at hwalk
  unfold Resolves at hres
  unfold populateEvtWithPath
  simp only [hx.file_eq, hread, hwalk, if_pos hres, hoff, Bool.not_true, Bool.false_eq_true,
    if_false, maxPathLen]
  by_cases h8192 : P.length = 8192
  · rw [if_pos h8192, if_pos (by unfold u32Sub; omega)]
  · have h₁ : ¬ u32Sub 8192 P.length = 0 := by unfold u32Sub; omega
    have h₂ : ¬ u32Sub 8192 P.length = 4096 * 2 := by unfold u32Sub; omega
    have h₃ : u32Sub (4096 * 2) (u32Sub 8192 P.length) = P.length := by unfold u32Sub; omega
    rw [if_neg h8192, if_neg h₁, if_neg h₂, h₃]

end

/-! ## A chain of any depth -/

/-- The pointers of one branch of directories: dentry `j` at address `2048 + 64 * j`, each a child
of the one before, on a mount at 256 that is its own parent. -/
def branchWord (a : Nat) : Nat :=
  if a = 24 then 288 -- the word at `&fs->root`, for the `fs_struct` at 0
  else if a = 272 then 256
  else if a = 288 then 2048
  else if a = 296 then 8
  else if 2048 ≤ a ∧ (a - 2048) % 64 = 24 then 2048 + 64 * ((a - 2048) / 64 - 1)
  else 1

/-- The branch in memory, with all its components of one name. -/
def branchMem (name : Bytes) : KMem where
  word := branchWord
  u32 a := if a = 304 then 0 else 7
  qstr _ := name
  isDentry a := decide (2048 ≤ a)
  isSuperBlock a := decide (a = 8)
  apart a h := by
    have hge : 2048 ≤ a := of_decide_eq_true h
    exact decide_eq_false (by rintro rfl; exact absurd hge (by decide))

theorem branchWord_dentry (j : Nat) {f : Nat} (hf : f < 64) :
    branchWord (2048 + 64 * j + f) = if f = 24 then 2048 + 64 * (j - 1) else 1 := by
  unfold branchWord
  rw [if_neg (by omega), if_neg (by omega), if_neg (by omega), if_neg (by omega)]
  by_cases h : f = 24
  · rw [if_pos (by omega), if_pos h]
    omega
  · rw [if_neg (by omega), if_neg h]

theorem dParent_branchMem (name : Bytes) (j : Nat) :
    (branchMem name).dParent (2048 + 64 * (j + 1)) = 2048 + 64 * j :=
  branchWord_dentry (j + 1) (f := 24) (by decide)

theorem chain_branchMem (hn : NameOk name) (j : Nat) :
    Chain (branchMem name) (2048 + 64 * j) 256 (List.replicate j (some name)) 2048 := by
  induction j with
  | zero => exact Chain.globalRoot ⟨rfl, Or.inl rfl, rfl⟩ hn
  | succ j ih =>
    have hroot : ¬ AtMountRoot (branchMem name) (2048 + 64 * (j + 1)) 256 := by
      rintro (h | h)
      · have hzero : 2048 + 64 * (j + 1) = 2048 := h
        omega
      · have hparent : 2048 + 64 * (j + 1) = 2048 + 64 * j := h.trans (dParent_branchMem name j)
        omega
    rw [List.replicate_succ]
    refine Chain.component (by simp [branchMem]) hroot hn ?_
    rw [dParent_branchMem]
    exact ih

/-- The exec of the file at depth `j` by a task of cgroup 7 in mount namespace `ns`; the branch is
in namespace 7. -/
def branchExec (name : Bytes) (j ns : Nat) : Exec where
  conf := { cgrpFsMagic := cgroup2SuperMagic, hostMntNsInum := 1, cgrpv1SubsysIdx := 0,
            learningEnabled := true }
  linuxKernelVersion := kernelVersion 5 15 0
  iterNum := false
  mem := branchMem name
  task := { cgroups := some { dflCgrp := 7, subsys := fun _ => 0 }, realParent := none,
            mntNsInum := ns, fs := 0 }
  file := some { mnt := 288, dentry := 2048 + 64 * j }

theorem onChain_branchExec (hn : NameOk name) (j ns : Nat) :
    OnChain (branchExec name j ns) { mnt := 288, dentry := 2048 + 64 * j }
      (List.replicate j (some name)) 2048 :=
  ⟨rfl, rfl, chain_branchMem hn j, rfl⟩

theorem execIsForeignRoot_branchExec (name : Bytes) (j ns : Nat) :
    execIsForeignRoot (branchExec name j ns) = decide (7 ≠ ns) := by
  simp [execIsForeignRoot, branchExec, branchMem, branchWord, KMem.mntFlags, KMem.mntNs,
    KMem.nsInum, containerOf]

theorem namesOf_replicate (j : Nat) (name : Bytes) :
    namesOf (List.replicate j (some name)) = List.replicate j name := by
  induction j with
  | zero => rfl
  | succ j ih =>
    rw [List.replicate_succ, List.replicate_succ, namesOf, List.reduceOption_cons_of_some]
    exact congrArg (name :: ·) ih

theorem namesLen_replicate (j : Nat) (name : Bytes) :
    namesLen (List.replicate j name) = j * (name.length + 1) := by
  induction j with
  | zero => simp [namesLen]
  | succ j ih => rw [List.replicate_succ, namesLen, ih, Nat.succ_mul]

theorem dUnlinked_branchMem (name : Bytes) (j : Nat) :
    dUnlinked (branchMem name) (2048 + 64 * j) = false := by
  have h : (branchMem name).dHashPprev (2048 + 64 * j) = 1 :=
    branchWord_dentry j (f := 16) (by decide)
  simp [dUnlinked, dUnhashed, h]

theorem fullPath_branchMem (name : Bytes) {j : Nat} (hj : 1 ≤ j) :
    fullPath (branchMem name) (2048 + 64 * j) (List.replicate j (some name)) 2048
      = joinNames (List.replicate j name) := by
  unfold fullPath
  rw [dUnlinked_branchMem, namesOf_replicate, if_neg (by simp), if_neg]
  intro h
  have := congrArg List.length h
  simp at this
  omega

/-- Cgroup 7 is tracked, and bound to policy 1 with the settings `st`. -/
def boundMaps (st : PolicySettings) : BpfMaps :=
  ((BpfMaps.empty.setCgtracker 7 7).bindCgroup 7 1).setSettings 1 (some st)

def zeroEvt : ProcessEvt where
  cgTrackerId := 0
  pathLen := 0
  mode := 0
  foreign := 0
  path := fun _ => 0

end RuntimeEnforcer.Hook
