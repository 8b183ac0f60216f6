import RuntimeEnforcer.Lib.ByteBuffer
import Mathlib.Data.List.ReduceOption

/-!
# Path resolution

`bpf/d_path_resolution.h`: the walk from a file's dentry up to the root, writing each component
in front of the previous one. The buffer has three segments of `MAX_PATH_LEN` bytes; the path
grows backwards from the end of the second, and the third is expected to stay zero.

Kernel memory is read the way the program reads it, by address: `KMem.word` is a pointer-sized
load, and a field is a load at the object's address plus the field's offset in
`bpf/vmlinux_generated_x86.h`. This is what makes `fs->root` come out as the source has it: the
program loads the *first word* of the embedded `struct path` and then reads that word as if it
pointed to a `struct path`.

Two ghost predicates, `isDentry` and `isSuperBlock`, say which addresses hold which kind of
object; an object has one kind.
-/

set_option autoImplicit false

namespace RuntimeEnforcer.Hook

open Lib

abbrev Addr := Nat

/-- Kernel memory: loads of a pointer (`word`) and of 32 bits (`u32`), and the `len` bytes at `name`
of the `struct qstr` at an address. The readers below are the fields of `struct dentry`,
`struct mount`, `struct vfsmount`, `struct path` and `struct fs_struct` that the program reads, each
at its offset; `fsRootDentry`, which it does not read, is for the statement of what a root is. -/
structure KMem where
  word : Addr → Addr
  u32 : Addr → Nat
  qstr : Addr → Bytes
  isDentry : Addr → Bool
  isSuperBlock : Addr → Bool
  apart : ∀ a, isDentry a = true → isSuperBlock a = false

def maxPathLen : Nat := 4096
def maxComponentLen : Nat := 256
def fallbackPathIterations : Nat := 512
def pathIterations : Nat := 2048

def deletedString : Bytes := [0x20, 0x28, 0x64, 0x65, 0x6c, 0x65, 0x74, 0x65, 0x64, 0x29]

def slash : UInt8 := 0x2f

def safePathLen (x : Nat) : Nat := x &&& (maxPathLen - 1)
def safePathAccess (x : Nat) : Nat := x &&& (maxPathLen * 2 - 1)
def safeComponentAccess (x : Nat) : Nat := x &&& (maxComponentLen - 1)

theorem safePathLen_eq (x : Nat) : safePathLen x = x % 4096 :=
  Nat.and_two_pow_sub_one_eq_mod x 12

theorem safePathAccess_eq (x : Nat) : safePathAccess x = x % 8192 :=
  Nat.and_two_pow_sub_one_eq_mod x 13

theorem safeComponentAccess_eq (x : Nat) : safeComponentAccess x = x % 256 :=
  Nat.and_two_pow_sub_one_eq_mod x 8

def u32Sub (a b : Nat) : Nat := (a + (2 ^ 32 - b % 2 ^ 32)) % 2 ^ 32

theorem u32Sub_u32Sub (a b c : Nat) : u32Sub (u32Sub a b) c = u32Sub a (b + c) := by
  unfold u32Sub
  omega

theorem u32Sub_of_le {a b : Nat} (h : b ≤ a) (ha : a < 2 ^ 32) : u32Sub a b = a - b := by
  unfold u32Sub
  omega

/-! ## Fields -/

namespace KMem

variable (k : KMem)

def dParent (d : Addr) : Addr := k.word (d + 24)
def dName (d : Addr) : Bytes := k.qstr (d + 32)
def dHashPprev (d : Addr) : Addr := k.word (d + 16)
def mntParent (m : Addr) : Addr := k.word (m + 16)
def mntMountpoint (m : Addr) : Addr := k.word (m + 24)
def mntNs (m : Addr) : Addr := k.word (m + 240)
def mntRoot (v : Addr) : Addr := k.word v
def mntSb (v : Addr) : Addr := k.word (v + 8)
def mntFlags (v : Addr) : Nat := k.u32 (v + 16)
def pathMnt (p : Addr) : Addr := k.word p
def pathDentry (p : Addr) : Addr := k.word (p + 8)
def fsRoot (fs : Addr) : Addr := k.word (fs + 24)
def fsRootDentry (fs : Addr) : Addr := k.word (fs + 32)
def nsInum (ns : Addr) : Nat := k.u32 (ns + 16)

end KMem

def vfsmountOf (m : Addr) : Addr := m + 32

def containerOf (v : Addr) : Addr := v - 32

/-! ## The walk -/

/-- `struct path_read_data`; `bptr` is the buffer it points to. -/
structure PathReadData where
  rootDentry : Addr
  rootMnt : Addr
  dentry : Addr
  vfsmnt : Addr
  mnt : Addr
  bptr : Buffer
  currOff : Nat
  resolved : Bool

def isRoot (k : KMem) (d : Addr) : Bool := d == k.dParent d

def dUnhashed (k : KMem) (d : Addr) : Bool := k.dHashPprev d == 0

def dUnlinked (k : KMem) (d : Addr) : Bool := dUnhashed k d && !isRoot k d

/-- The two writes of `copy_name`, for a component `name`: the slash, then the name after it. -/
def layName (buf : Buffer) (off : Nat) (name : Bytes) : Buffer × Nat :=
  let off := u32Sub off (name.length + 1)
  let buf := buf.write (safePathAccess off) [slash]
  let buf := buf.write (safePathAccess ((off + 1) % 2 ^ 32))
    (name.take (safeComponentAccess name.length))
  (buf, off)

def copyName (k : KMem) (data : PathReadData) (d : Addr) : PathReadData :=
  let (buf, off) := layName data.bptr data.currOff (k.dName d)
  { data with bptr := buf, currOff := off }

/-- `path_read`: whether the walk is over, and the data it leaves. -/
def pathRead (k : KMem) (data : PathReadData) : Bool × PathReadData :=
  if data.dentry == data.rootDentry && data.vfsmnt == data.rootMnt then
    (true, { data with resolved := true })
  else if data.dentry == k.mntRoot data.vfsmnt || isRoot k data.dentry then
    let mParent := k.mntParent data.mnt
    if data.mnt == mParent then
      (true, { data with resolved := true })
    else
      (false, { data with
        dentry := k.mntMountpoint data.mnt
        mnt := mParent
        vfsmnt := vfsmountOf mParent })
  else
    let data' := copyName k data data.dentry
    (false, { data' with dentry := k.dParent data.dentry })

/-- The loop over `path_read`, at most `n` times. -/
def repeatPathRead (k : KMem) : Nat → PathReadData → PathReadData
  | 0, data => data
  | n + 1, data =>
    match pathRead k data with
    | (true, data') => data'
    | (false, data') => repeatPathRead k n data'

/-- The iteration bound: numeric iterators are there from kernel 6.4 on. -/
def iterationBound (iterNum : Bool) : Nat :=
  if iterNum then pathIterations else fallbackPathIterations

/-- Where the walk starts: the suffix of an unlinked file is written first. -/
def startOff (k : KMem) (dentry : Addr) : Nat :=
  if dUnlinked k dentry then maxPathLen * 2 - deletedString.length else maxPathLen * 2

def startBuf (k : KMem) (dentry : Addr) (buf : Buffer) : Buffer :=
  if dUnlinked k dentry then
    buf.write (safePathAccess (maxPathLen * 2 - deletedString.length)) deletedString
  else buf

/-- The data the walk starts with. -/
def startData (k : KMem) (fs dentry vfsmnt : Addr) (buf : Buffer) : PathReadData :=
  let root := k.fsRoot fs
  { rootDentry := k.pathDentry root
    rootMnt := k.pathMnt root
    dentry := dentry
    vfsmnt := vfsmnt
    mnt := containerOf vfsmnt
    bptr := startBuf k dentry buf
    currOff := startOff k dentry
    resolved := false }

/-- memfd files have no path, so nothing was laid down; their dentry's own name is used. -/
def copyMemfdName (k : KMem) (data : PathReadData) : PathReadData :=
  if data.currOff == maxPathLen * 2 then copyName k data data.dentry else data

def bpfDPathApprox (k : KMem) (iterNum : Bool) (fs dentry vfsmnt : Addr) (buf : Buffer) :
    Nat × Buffer :=
  let data := startData k fs dentry vfsmnt buf
  let data := repeatPathRead k (iterationBound iterNum) data
  let data := copyMemfdName k data
  (if data.resolved then data.currOff else 0, data.bptr)

/-! ## Chains

What the walk is meant to follow: a file's dentry up to the global root (the mount that is its
own parent), through `d_parent` inside a mount and through the mountpoint at a mount's root. A
link is the name of a component, or `none` for a mount crossing. A part of the way is a `Trail`, and
the whole of it a `Chain`. -/

/-- At the root of a mount, or at a dentry that is its own parent. -/
def AtMountRoot (k : KMem) (d m : Addr) : Prop :=
  d = k.mntRoot (vfsmountOf m) ∨ d = k.dParent d

/-- A component name: 1 to 255 bytes. -/
def NameOk (name : Bytes) : Prop := 1 ≤ name.length ∧ name.length ≤ 255

instance (name : Bytes) : Decidable (NameOk name) := by unfold NameOk; infer_instance

/-- `Trail k d m links d' m'`: the links from dentry `d` on mount `m` up to `d'` on `m'`, which need
not be the global root. -/
inductive Trail (k : KMem) : Addr → Addr → List (Option Bytes) → Addr → Addr → Prop
  | here {d m : Addr} : Trail k d m [] d m
  | crossMount {d m d' m' : Addr} {links : List (Option Bytes)} (hd : k.isDentry d = true)
      (hr : AtMountRoot k d m) (hm : k.mntParent m ≠ m)
      (next : Trail k (k.mntMountpoint m) (k.mntParent m) links d' m') :
      Trail k d m (none :: links) d' m'
  | component {d m d' m' : Addr} {links : List (Option Bytes)} (hd : k.isDentry d = true)
      (hr : ¬ AtMountRoot k d m) (hn : NameOk (k.dName d))
      (next : Trail k (k.dParent d) m links d' m') :
      Trail k d m (some (k.dName d) :: links) d' m'

/-- The root of the mount that is its own parent. -/
structure GlobalRoot (k : KMem) (d m : Addr) : Prop where
  dentry : k.isDentry d = true
  root : AtMountRoot k d m
  parent : k.mntParent m = m

/-- A trail up to the global root, which is reached at dentry `fin`. Every dentry on the way has a
name, also where a mount is crossed: a walk that is given up is given up at any of them. -/
structure Chain (k : KMem) (d m : Addr) (links : List (Option Bytes)) (fin : Addr) : Prop where
  trail : ∃ gm, Trail k d m links fin gm ∧ GlobalRoot k fin gm
  named : ∀ before d' m', before <+: links → Trail k d m before d' m' → NameOk (k.dName d')

def namesOf (links : List (Option Bytes)) : List Bytes := links.reduceOption

def joinNames : List Bytes → Bytes
  | [] => []
  | name :: names => joinNames names ++ slash :: name

def namesLen : List Bytes → Nat
  | [] => 0
  | name :: names => namesLen names + (name.length + 1)

def pathBytes (k : KMem) (dentry : Addr) (names : List Bytes) : Bytes :=
  joinNames names ++ if dUnlinked k dentry then deletedString else []

/-- The full absolute path of a file: its components, and the suffix of an unlinked one. A file
with no component, such as a memfd, goes by the name of its dentry. -/
def fullPath (k : KMem) (dentry : Addr) (links : List (Option Bytes)) (fin : Addr) : Bytes :=
  if dUnlinked k dentry then joinNames (namesOf links) ++ deletedString
  else if namesOf links = [] then slash :: k.dName fin
  else joinNames (namesOf links)

/-- The root directory of the task whose `fs_struct` is at `fs`: `fs->root.mnt` and
`fs->root.dentry`. A mount's `mnt_sb` is a super block. -/
structure TaskRoot (k : KMem) (fs d m : Addr) : Prop where
  mnt : k.fsRoot fs = vfsmountOf m
  dentry : k.fsRootDentry fs = d
  superBlock : k.isSuperBlock (k.mntSb (vfsmountOf m)) = true

end RuntimeEnforcer.Hook
