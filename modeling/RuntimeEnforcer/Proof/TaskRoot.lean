import RuntimeEnforcer.Proof.PathWalk

/-!
# The walk and the task's root

A trail is a part of the way from a file to the global root; walking it lays its names and arrives
at its end (`repeatPathRead_trail`). A whole walk ends at the global root (`bpfDPathApprox_trail`),
for every task: the root that `path_read` compares with is not the task's. The program loads the
first word of `fs->root`, which is the address of the root's `vfsmount`, and reads that as the
address of a `struct path`; what it stores as the root's dentry is the mount's super block, and no
dentry is one (`rootTest_trail`).

So the path is right for a task whose root is the global root (`path_reconstructed`), and for
another task exactly when only mount crossings lie above its root (`taskRoot_path_iff`).
-/

set_option autoImplicit false

namespace RuntimeEnforcer.Hook

open Lib

/-- The first test of `path_read`. -/
def rootTest (data : PathReadData) : Bool :=
  data.dentry == data.rootDentry && data.vfsmnt == data.rootMnt

namespace Trail

variable {k : KMem} {d m d' m' d'' m'' : Addr} {links links' : List (Option Bytes)}

theorem append (h : Trail k d m links d' m') (h' : Trail k d' m' links' d'' m'') :
    Trail k d m (links ++ links') d'' m'' := by
  induction h with
  | here => exact h'
  | crossMount hd hr hm _ ih => exact .crossMount hd hr hm (ih h')
  | component hd hr hn _ ih => exact .component hd hr hn (ih h')

end Trail

section Walk

variable {k : KMem} {d m d' m' : Addr} {links : List (Option Bytes)}

/-- Walking a trail: as many rounds as it has links, at the end of which its names are laid. -/
theorem repeatPathRead_trail (ht : Trail k d m links d' m') (n : Nat) {data : PathReadData}
    (h : data.At k d m) :
    ∃ data', repeatPathRead k (links.length + n) data = repeatPathRead k n data' ∧
      data'.At k d' m' ∧
      (data'.bptr, data'.currOff) = layNames (namesOf links) data.bptr data.currOff := by
  induction ht generalizing data with
  | here => exact ⟨data, by simp, h, rfl⟩
  | crossMount hd hr hm _ ih =>
    obtain ⟨next, hp, hat, hb, ho, _⟩ := pathRead_crossMount h hd hr hm
    obtain ⟨data', hrun, hat', hlay⟩ := ih hat
    refine ⟨data', ?_, hat', by rw [hlay, hb, ho]; rfl⟩
    rw [List.length_cons, Nat.add_right_comm, repeatPathRead, hp]
    exact hrun
  | component hd hr _ _ ih =>
    obtain ⟨next, hp, hat, hb, ho, _⟩ := pathRead_component h hd hr
    obtain ⟨data', hrun, hat', hlay⟩ := ih hat
    refine ⟨data', ?_, hat', by rw [hlay, hb, ho]; rfl⟩
    rw [List.length_cons, Nat.add_right_comm, repeatPathRead, hp]
    exact hrun

theorem repeatPathRead_globalRoot (hg : GlobalRoot k d m) (n : Nat) {data : PathReadData}
    (h : data.At k d m) : repeatPathRead k (n + 1) data = { data with resolved := true } := by
  rw [repeatPathRead, pathRead_globalRoot h hg.dentry hg.root hg.parent]

/-- On the way to the global root the first test does not succeed, however many rounds are made. -/
theorem rootTest_trail (ht : Trail k d m links d' m') (hg : GlobalRoot k d' m') (n : Nat)
    {data : PathReadData} (h : data.At k d m) : rootTest (repeatPathRead k n data) = false := by
  induction ht generalizing n data with
  | here =>
    cases n with
    | zero => exact h.not_root hg.dentry
    | succ n =>
      rw [repeatPathRead_globalRoot hg n h]
      exact h.not_root hg.dentry
  | crossMount hd hr hm _ ih =>
    cases n with
    | zero => exact h.not_root hd
    | succ n =>
      obtain ⟨next, hp, hat, _⟩ := pathRead_crossMount h hd hr hm
      rw [repeatPathRead, hp]
      exact ih hg n hat
  | component hd hr _ _ ih =>
    cases n with
    | zero => exact h.not_root hd
    | succ n =>
      obtain ⟨next, hp, hat, _⟩ := pathRead_component h hd hr
      rw [repeatPathRead, hp]
      exact ih hg n hat

end Walk

/-! ## The whole walk -/

section Task

variable {k : KMem} {fs dentry vfsmnt d m fin gm : Addr} {links : List (Option Bytes)}

/-- What is stored as the root's dentry is the super block of the root's mount. -/
theorem TaskRoot.start_at (htask : TaskRoot k fs d m)
    (hmnt : vfsmountOf (containerOf vfsmnt) = vfsmnt) (buf : Buffer) :
    (startData k fs dentry vfsmnt buf).At k dentry (containerOf vfsmnt) := by
  refine ⟨rfl, rfl, hmnt.symm, ?_⟩
  have hsb : k.isSuperBlock (startData k fs dentry vfsmnt buf).rootDentry = true := by
    show k.isSuperBlock (k.pathDentry (k.fsRoot fs)) = true
    rw [htask.mnt]
    exact htask.superBlock
  by_contra hd
  have hnot := k.apart _ (by simpa using hd)
  exact absurd (hsb.symm.trans hnot) (by simp)

theorem bpfDPathApprox_trail (ht : Trail k dentry (containerOf vfsmnt) links fin gm)
    (hg : GlobalRoot k fin gm) (hmnt : vfsmountOf (containerOf vfsmnt) = vfsmnt)
    (htask : TaskRoot k fs d m) (hne : namesOf links ≠ []) {iterNum : Bool}
    (hbound : links.length + 1 ≤ iterationBound iterNum) (buf : Buffer)
    (hlen : (pathBytes k dentry (namesOf links)).length ≤ 8191) :
    bpfDPathApprox k iterNum fs dentry vfsmnt buf =
      let laid := layNames (namesOf links) (startBuf k dentry buf) (startOff k dentry)
      (laid.2, laid.1) := by
  obtain ⟨data, hrun, hat, hlay⟩ := repeatPathRead_trail ht
    (iterationBound iterNum - links.length - 1 + 1) (htask.start_at hmnt buf)
  have hrounds : links.length + (iterationBound iterNum - links.length - 1 + 1) =
      iterationBound iterNum := by omega
  rw [hrounds, repeatPathRead_globalRoot hg _ hat] at hrun
  have hlay : (data.bptr, data.currOff) =
      layNames (namesOf links) (startBuf k dentry buf) (startOff k dentry) := hlay
  -- a component has been laid, so this is not a memfd
  have hoff : data.currOff ≠ maxPathLen * 2 := by
    have hpos : namesLen (namesOf links) ≠ 0 := fun h => hne (namesLen_eq_zero_iff.mp h)
    have hL := length_pathBytes k dentry (namesOf links)
    have hfits := (layNames_start ht.names buf (Nat.le_succ_of_le hlen)).1
    rw [← hlay] at hfits
    have hcur : data.currOff = 8192 - (pathBytes k dentry (namesOf links)).length := hfits
    show data.currOff ≠ 8192
    omega
  unfold bpfDPathApprox
  simp only [hrun, copyMemfdName, beq_iff_eq, if_neg hoff, if_true]
  rw [← hlay]

/-- **The path is reconstructed.** For a file whose way to the global root is `links`, run by a task
whose root is the global root: the offset, the bytes from there on, and nothing else. -/
theorem path_reconstructed (ht : Trail k dentry (containerOf vfsmnt) links fin gm)
    (hg : GlobalRoot k fin gm) (hmnt : vfsmountOf (containerOf vfsmnt) = vfsmnt)
    (htask : TaskRoot k fs fin gm) (hne : namesOf links ≠ []) (iterNum : Bool)
    (hbound : links.length + 1 ≤ iterationBound iterNum)
    (hlen : (pathBytes k dentry (namesOf links)).length ≤ maxPathLen * 2 - 1) (buf : Buffer) :
    let P := pathBytes k dentry (namesOf links)
    let r := bpfDPathApprox k iterNum fs dentry vfsmnt buf
    r.1 = maxPathLen * 2 - P.length ∧ r.2.window r.1 P.length = P ∧
      ∀ i, maxPathLen * 2 ≤ i ∨ i < r.1 → r.2 i = buf i := by
  intro P r
  have hlen : P.length ≤ 8191 := hlen
  obtain ⟨ho, hw, hf⟩ := layNames_start ht.names buf (Nat.le_succ_of_le hlen)
  have hr : r = _ := bpfDPathApprox_trail ht hg hmnt htask hne hbound buf hlen
  have hr₁ : r.1 = 8192 - P.length := by rw [hr]; exact ho
  refine ⟨hr₁, ?_, fun i hi => ?_⟩
  · rw [hr₁, hr]
    exact hw
  · rw [hr₁] at hi
    rw [hr]
    exact hf i hi.symm

theorem joinNames_append (names names' : List Bytes) :
    joinNames (names ++ names') = joinNames names' ++ joinNames names := by
  induction names with
  | nil => simp [joinNames]
  | cons name names ih => simp [joinNames, ih]

theorem namesOf_append (links links' : List (Option Bytes)) :
    namesOf (links ++ links') = namesOf links ++ namesOf links' :=
  List.reduceOption_append links links'

/-- **The task's root does not end the walk.** For a task whose root `d` on `m` is on the way from
the file to the global root: the first test succeeds in no round, and the path is that of the
components below the task's root exactly when there are none above it. -/
theorem taskRoot_path_iff {below above : List (Option Bytes)}
    (hbelow : Trail k dentry (containerOf vfsmnt) below d m) (habove : Trail k d m above fin gm)
    (hg : GlobalRoot k fin gm) (hmnt : vfsmountOf (containerOf vfsmnt) = vfsmnt)
    (htask : TaskRoot k fs d m) (hne : namesOf below ≠ []) (iterNum : Bool)
    (hbound : (below ++ above).length + 1 ≤ iterationBound iterNum)
    (hlen : (pathBytes k dentry (namesOf (below ++ above))).length ≤ maxPathLen * 2 - 1)
    (buf : Buffer) :
    (∀ n, rootTest (repeatPathRead k n (startData k fs dentry vfsmnt buf)) = false) ∧
    (let P := pathBytes k dentry (namesOf below)
     let r := bpfDPathApprox k iterNum fs dentry vfsmnt buf
     (r.1 = maxPathLen * 2 - P.length ∧ r.2.window r.1 P.length = P) ↔ namesOf above = []) := by
  have ht := hbelow.append habove
  have hlen : (pathBytes k dentry (namesOf (below ++ above))).length ≤ 8191 := hlen
  refine ⟨fun n => rootTest_trail ht hg n (htask.start_at hmnt buf), ?_⟩
  intro P r
  have hall : namesOf (below ++ above) ≠ [] := by
    rw [namesOf_append]
    exact fun h => hne (List.append_eq_nil_iff.mp h).1
  obtain ⟨ho, hw, _⟩ := layNames_start ht.names buf (Nat.le_succ_of_le hlen)
  have hr : r = _ := bpfDPathApprox_trail ht hg hmnt htask hall hbound buf hlen
  have hr₁ : r.1 = 8192 - (pathBytes k dentry (namesOf (below ++ above))).length := by
    rw [hr]; exact ho
  -- the components above the root are in front of those below
  have hP : (pathBytes k dentry (namesOf (below ++ above))).length =
      namesLen (namesOf above) + P.length := by
    simp only [P, pathBytes, namesOf_append, joinNames_append, List.length_append,
      length_joinNames]
    omega
  constructor
  · rintro ⟨hoff, _⟩
    have hoff : r.1 = 8192 - P.length := hoff
    exact namesLen_eq_zero_iff.mp (by omega)
  · intro hnone
    have hsame : namesOf (below ++ above) = namesOf below := by
      rw [namesOf_append, hnone, List.append_nil]
    rw [hsame] at hw hr₁
    refine ⟨hr₁, ?_⟩
    rw [hr₁, hr, hsame]
    exact hw

end Task

/-! ## A file two directories down -/

namespace Sample

/-- The branch of directories, with the task's root at the dentry `root`. -/
def rootedMem (root : Addr) : KMem :=
  { branchMem [0x61] with word := fun a => if a = 32 then root else branchWord a }

theorem rootedMem_taskRoot (root : Addr) : TaskRoot (rootedMem root) 0 root 256 :=
  ⟨rfl, rfl, rfl⟩

theorem rootedMem_globalRoot (root : Addr) : GlobalRoot (rootedMem root) 2048 256 :=
  ⟨rfl, .inl rfl, rfl⟩

theorem rootedMem_below (root : Addr) :
    Trail (rootedMem root) 2176 (containerOf 288) [some [0x61]] 2112 256 := by
  refine .component rfl ?_ (show NameOk [0x61] by decide) .here
  rintro (h | h)
  · exact absurd (show 2176 = 2048 from h) (by decide)
  · exact absurd (show 2176 = 2112 from h) (by decide)

theorem rootedMem_above (root : Addr) :
    Trail (rootedMem root) 2112 256 [some [0x61]] 2048 256 := by
  refine .component rfl ?_ (show NameOk [0x61] by decide) .here
  rintro (h | h)
  · exact absurd (show 2112 = 2048 from h) (by decide)
  · exact absurd (show 2112 = 2048 from h) (by decide)

theorem reconstructed :
    let r := bpfDPathApprox (rootedMem 2048) true 0 2176 288 zeroEvt.path
    r.1 = 8188 ∧ r.2.window r.1 4 = [slash, 0x61, slash, 0x61] := by
  have h := path_reconstructed ((rootedMem_below 2048).append (rootedMem_above 2048))
    (rootedMem_globalRoot 2048) rfl (rootedMem_taskRoot 2048) (by decide) true (by decide)
    (by decide) zeroEvt.path
  exact ⟨h.1, h.2.1⟩

/-- A task with its root at `/a` runs the file it sees as `/a`: the path that is found is `/a/a`. -/
theorem jailed :
    TaskRoot (rootedMem 2112) 0 2112 256 ∧
    Trail (rootedMem 2112) 2176 (containerOf 288) [some [0x61]] 2112 256 ∧
    Trail (rootedMem 2112) 2112 256 [some [0x61]] 2048 256 ∧
    GlobalRoot (rootedMem 2112) 2048 256 ∧
    pathBytes (rootedMem 2112) 2176 (namesOf [some [0x61]]) = [slash, 0x61] ∧
    (let r := bpfDPathApprox (rootedMem 2112) true 0 2176 288 zeroEvt.path
     r.1 = 8188 ∧ r.2.window r.1 4 = [slash, 0x61, slash, 0x61]) :=
  ⟨rootedMem_taskRoot 2112, rootedMem_below 2112, rootedMem_above 2112, rootedMem_globalRoot 2112,
    by decide, by decide +kernel⟩

theorem jailed_path_iff :
    let r := bpfDPathApprox (rootedMem 2112) true 0 2176 288 zeroEvt.path
    (r.1 = 8190 ∧ r.2.window r.1 2 = [slash, 0x61]) ↔ namesOf [some [0x61]] = [] :=
  (taskRoot_path_iff (rootedMem_below 2112) (rootedMem_above 2112) (rootedMem_globalRoot 2112) rfl
    (rootedMem_taskRoot 2112) (by decide) true (by decide) (by decide) zeroEvt.path).2

end Sample

end RuntimeEnforcer.Hook
