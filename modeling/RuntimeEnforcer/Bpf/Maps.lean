import RuntimeEnforcer.Lib.GoMap
import RuntimeEnforcer.Lib.ByteBuffer
import Mathlib.Data.Vector.Basic
import Mathlib.Data.List.DropRight
import Mathlib.Logic.Function.Basic

/-!
# The BPF maps

The maps userspace writes and the hook reads: `cgtracker_map`, `cg_to_policy_map`,
`policy_settings_map` (`bpf/main.c`) and the eleven hash-of-maps `pol_str_maps_0` …
`pol_str_maps_10` (`bpf/string_maps.h`). An inner string map has a fixed key size, that of its
outer map, and holds nothing but keys (every value is `1`); a kernel hash lookup compares exactly
key-size bytes, so a key *is* its bytes and its length is part of its type.

The sizes are written down twice in the source, once for each side
(`STRING_MAPS_SIZE_*`, `stringMapSize*`); the two lists are the same numbers and are one
definition here. What each side computes *from* them is not shared: the hook's arithmetic is in
`Bpf/StringMaps.lean`, userspace's in `Manager/PolicyValues.lean`.
-/

set_option autoImplicit false

namespace RuntimeEnforcer

open Lib

abbrev CgroupID := Nat

/-- A `uint64` that is counted up from 1; `nextPolicyID_lt` says how far it gets. -/
abbrev PolicyID := Nat

/-- `KERNEL_VERSION(a, b, c)`, and what `KernelStringToNumeric` makes of `"a.b.c"`. -/
def kernelVersion (a b c : Nat) : Nat := a * 65536 + b * 256 + min c 255

/-! ## Sizes -/

def stringMapsKeyIncSize : Nat := 24
def stringMapSize0 : Nat := 1 * stringMapsKeyIncSize
def stringMapSize1 : Nat := 2 * stringMapsKeyIncSize
def stringMapSize2 : Nat := 3 * stringMapsKeyIncSize
def stringMapSize3 : Nat := 4 * stringMapsKeyIncSize
def stringMapSize4 : Nat := 5 * stringMapsKeyIncSize
def stringMapSize5 : Nat := 6 * stringMapsKeyIncSize
def stringMapSize6 : Nat := 256
def stringMapSize7 : Nat := 512
def stringMapSize8 : Nat := 1024
def stringMapSize9 : Nat := 2048
def stringMapSize10 : Nat := 4096

abbrev MapIndex := Fin 11

def maxStringMapsSize : Nat := 4096

def stringMapsSizes : MapIndex → Nat
  | 0 => stringMapSize0
  | 1 => stringMapSize1
  | 2 => stringMapSize2
  | 3 => stringMapSize3
  | 4 => stringMapSize4
  | 5 => stringMapSize5
  | 6 => stringMapSize6
  | 7 => stringMapSize7
  | 8 => stringMapSize8
  | 9 => stringMapSize9
  | 10 => stringMapSize10

theorem stringMapsSizes_le (i : MapIndex) :
    stringMapsSizes i ≤ maxStringMapsSize := by
  revert i; decide

/-! ## Keys -/

abbrev Key (n : Nat) := List.Vector UInt8 n

theorem key_ext {n : Nat} {a b : Key n} (h : ∀ i : Nat, a.toList[i]? = b.toList[i]?) :
    a = b :=
  List.Vector.eq a b (List.ext_getElem? h)

/-- `b` in a zeroed array of `n` bytes: cut at `n`, or filled up with NULs. -/
def padTo (n : Nat) (b : Bytes) : Key n :=
  ⟨(b ++ List.replicate n 0).take n, by simp⟩

theorem getElem?_padTo {n : Nat} {b : Bytes} (i : Nat) :
    (padTo n b).toList[i]? = if i < n then some (b[i]?.getD 0) else none := by
  show ((b ++ List.replicate n 0).take n)[i]? = _
  by_cases hi : i < n
  · rw [if_pos hi]
    simp only [List.getElem?_take, if_pos hi]
    by_cases hb : i < b.length
    · simp [List.getElem?_append_left hb, hb]
    · rw [List.getElem?_append_right (by omega), List.getElem?_replicate,
        if_pos (by omega), List.getElem?_eq_none (by omega)]
      rfl
  · rw [if_neg hi]
    exact List.getElem?_eq_none (by simp; omega)

theorem padTo_padTo {n k : Nat} (h : n ≤ k) (b : Bytes) :
    padTo n (padTo k b).toList = padTo n b := by
  refine key_ext fun i => ?_
  simp only [getElem?_padTo]
  by_cases hi : i < n
  · rw [if_pos hi, if_pos hi, if_pos (Nat.lt_of_lt_of_le hi h)]
    rfl
  · rw [if_neg hi, if_neg hi]

/-- The bytes of `b` up to its last byte that is not NUL. -/
def stripNul (b : Bytes) : Bytes := b.rdropWhile (· == 0)

/-- What `stripNul` takes off is NULs. -/
theorem exists_stripNul_append (b : Bytes) : ∃ k, b = stripNul b ++ List.replicate k 0 := by
  induction b using List.reverseRecOn with
  | nil => exact ⟨0, rfl⟩
  | append_singleton b x ih =>
    by_cases hx : (x == 0) = true
    · obtain ⟨k, hk⟩ := ih
      refine ⟨k + 1, ?_⟩
      rw [stripNul, List.rdropWhile_concat_pos (· == 0) b x hx, List.replicate_succ',
        ← List.append_assoc, eq_of_beq hx]
      exact congrArg (· ++ [0]) hk
    · exact ⟨0, by rw [stripNul, List.rdropWhile_concat_neg (· == 0) b x hx]; simp⟩

theorem stripNul_append_nuls (b : Bytes) (k : Nat) :
    stripNul (b ++ List.replicate k 0) = stripNul b := by
  induction k with
  | zero => simp
  | succ k ih =>
    rw [List.replicate_succ', ← List.append_assoc, stripNul,
      List.rdropWhile_concat_pos (· == 0) _ 0 rfl]
    exact ih

theorem stripNul_of_nulFree {b : Bytes} (h : 0 ∉ b) : stripNul b = b := by
  obtain ⟨k, hk⟩ := exists_stripNul_append b
  cases k with
  | zero => simpa using hk.symm
  | succ k => exact absurd (by rw [hk]; simp) h

theorem toList_padTo_of_le {n : Nat} {b : Bytes} (h : b.length ≤ n) :
    (padTo n b).toList = b ++ List.replicate (n - b.length) 0 := by
  show (b ++ List.replicate n 0).take n = _
  rw [List.take_append, List.take_of_length_le h, List.take_replicate]
  congr 2
  omega

/-- Padding forgets trailing NULs, and nothing else. -/
theorem padTo_eq_padTo_iff {n : Nat} {a b : Bytes} (ha : a.length ≤ n) (hb : b.length ≤ n) :
    padTo n a = padTo n b ↔ stripNul a = stripNul b := by
  constructor
  · intro h
    have hl : a ++ List.replicate (n - a.length) 0 = b ++ List.replicate (n - b.length) 0 := by
      rw [← toList_padTo_of_le ha, ← toList_padTo_of_le hb, h]
    rw [← stripNul_append_nuls a (n - a.length), hl, stripNul_append_nuls]
  · intro h
    obtain ⟨j, hj⟩ := exists_stripNul_append a
    obtain ⟨k, hk⟩ := exists_stripNul_append b
    refine key_ext fun i => ?_
    simp only [getElem?_padTo]
    -- byte for byte, both are the stripped list and then NULs
    have hbyte : ∀ (l : Bytes) (c : Nat), (l ++ List.replicate c 0)[i]?.getD 0 = l[i]?.getD 0 := by
      intro l c
      by_cases hi : i < l.length
      · rw [List.getElem?_append_left hi]
      · rw [List.getElem?_append_right (by omega), List.getElem?_replicate,
          List.getElem?_eq_none (Nat.not_lt.mp hi)]
        split <;> rfl
    rw [hj, hk, hbyte, hbyte, h]

/-! ## The maps -/

/-- An inner map of key size `n`: the set of its keys. -/
abbrev InnerMap (n : Nat) := List (Key n)

structure PolicySettings where
  mode : UInt8
  allowForeignRoot : UInt8
  deriving DecidableEq, Repr

def policyModeMonitor : UInt8 := 1
def policyModeProtect : UInt8 := 2

/-- The state of the maps. Only `cg_to_policy_map` is ever iterated. -/
structure BpfMaps where
  cgtracker : CgroupID → Option CgroupID
  cgToPolicy : GoMap CgroupID PolicyID
  polStrMaps : (i : MapIndex) → PolicyID → Option (InnerMap (stringMapsSizes i))
  policySettings : PolicyID → Option PolicySettings

def BpfMaps.empty : BpfMaps where
  cgtracker := fun _ => none
  cgToPolicy := ∅
  polStrMaps := fun _ _ => none
  policySettings := fun _ => none

namespace BpfMaps

variable (m : BpfMaps)

def setCgtracker (cg v : CgroupID) : BpfMaps :=
  { m with cgtracker := Function.update m.cgtracker cg (some v) }

def bindCgroup (cg : CgroupID) (id : PolicyID) : BpfMaps :=
  { m with cgToPolicy := m.cgToPolicy.insert cg id }

def unbindCgroup (cg : CgroupID) : BpfMaps :=
  { m with cgToPolicy := m.cgToPolicy.erase cg }

/-- Put `inner` (or nothing) at `id` in the `i`-th string map. -/
def setStrMap (i : MapIndex) (id : PolicyID)
    (inner : Option (InnerMap (stringMapsSizes i))) : BpfMaps :=
  let outer := Function.update (m.polStrMaps i) id inner
  { m with polStrMaps := Function.update m.polStrMaps i outer }

def setSettings (id : PolicyID) (st : Option PolicySettings) : BpfMaps :=
  { m with policySettings := Function.update m.policySettings id st }

/-! Each update touches one map and leaves the others alone. -/

section Frame

variable {m : BpfMaps} (cg : CgroupID) (v : CgroupID) (id : PolicyID)
  (i : MapIndex) (inner : Option (InnerMap (stringMapsSizes i)))
  (st : Option PolicySettings)

@[simp] theorem cgtracker_setCgtracker (c : CgroupID) :
    (m.setCgtracker cg v).cgtracker c = if c = cg then some v else m.cgtracker c := by
  simp [setCgtracker, Function.update_apply]
@[simp] theorem setCgtracker_cgToPolicy : (m.setCgtracker cg v).cgToPolicy = m.cgToPolicy := rfl
@[simp] theorem setCgtracker_polStrMaps : (m.setCgtracker cg v).polStrMaps = m.polStrMaps := rfl
@[simp] theorem setCgtracker_policySettings :
    (m.setCgtracker cg v).policySettings = m.policySettings := rfl

@[simp] theorem bindCgroup_cgtracker : (m.bindCgroup cg id).cgtracker = m.cgtracker := rfl
@[simp] theorem bindCgroup_polStrMaps : (m.bindCgroup cg id).polStrMaps = m.polStrMaps := rfl
@[simp] theorem bindCgroup_policySettings :
    (m.bindCgroup cg id).policySettings = m.policySettings := rfl
@[simp] theorem lookup_bindCgroup (c : CgroupID) :
    (m.bindCgroup cg id).cgToPolicy.lookup c
      = if c = cg then some id else m.cgToPolicy.lookup c := GoMap.lookup_insert_eq

@[simp] theorem unbindCgroup_cgtracker : (m.unbindCgroup cg).cgtracker = m.cgtracker := rfl
@[simp] theorem unbindCgroup_polStrMaps : (m.unbindCgroup cg).polStrMaps = m.polStrMaps := rfl
@[simp] theorem unbindCgroup_policySettings :
    (m.unbindCgroup cg).policySettings = m.policySettings := rfl
@[simp] theorem lookup_unbindCgroup (c : CgroupID) :
    (m.unbindCgroup cg).cgToPolicy.lookup c
      = if c = cg then none else m.cgToPolicy.lookup c := GoMap.lookup_erase_eq

@[simp] theorem setStrMap_cgtracker : (m.setStrMap i id inner).cgtracker = m.cgtracker := rfl
@[simp] theorem setStrMap_cgToPolicy : (m.setStrMap i id inner).cgToPolicy = m.cgToPolicy := rfl
@[simp] theorem setStrMap_policySettings :
    (m.setStrMap i id inner).policySettings = m.policySettings := rfl

@[simp] theorem setSettings_cgtracker : (m.setSettings id st).cgtracker = m.cgtracker := rfl
@[simp] theorem setSettings_cgToPolicy : (m.setSettings id st).cgToPolicy = m.cgToPolicy := rfl
@[simp] theorem setSettings_polStrMaps : (m.setSettings id st).polStrMaps = m.polStrMaps := rfl
@[simp] theorem policySettings_setSettings (d : PolicyID) :
    (m.setSettings id st).policySettings d = if d = id then st else m.policySettings d := by
  simp [setSettings, Function.update_apply]

@[simp] theorem setStrMap_self : (m.setStrMap i id inner).polStrMaps i id = inner := by
  simp [setStrMap]

theorem setStrMap_same : m.setStrMap i id (m.polStrMaps i id) = m := by
  simp [setStrMap]

theorem setStrMap_of_ne_index {j : MapIndex} (h : j ≠ i) :
    (m.setStrMap i id inner).polStrMaps j = m.polStrMaps j := by
  simp [setStrMap, Function.update_of_ne h]

theorem setStrMap_of_ne_id {d : PolicyID} (h : d ≠ id) (j : MapIndex) :
    (m.setStrMap i id inner).polStrMaps j d = m.polStrMaps j d := by
  by_cases hj : j = i
  · subst hj; simp [setStrMap, Function.update_of_ne h]
  · rw [setStrMap_of_ne_index _ _ _ hj]

end Frame

end BpfMaps

end RuntimeEnforcer
