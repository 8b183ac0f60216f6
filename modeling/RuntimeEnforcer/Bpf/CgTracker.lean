import RuntimeEnforcer.Bpf.Maps

/-!
# The tracker hooks

`tg_cgtracker_cgroup_mkdir` and `tg_cgtracker_cgroup_release` (`bpf/main.c`), on the tracepoints
of those names. A new cgroup inherits the tracker id of its parent, if the parent has one; a
released one is forgotten. Neither looks at which hierarchy its cgroup belongs to.

The kernel keeps a cgroup's ancestors in one of two places, depending on its version, and
`cgroup_get_parent_id` reads whichever is there.
-/

set_option autoImplicit false

namespace RuntimeEnforcer.Hook

/-- `struct cgroup`, by its kernfs id and those of its ancestors, the root of the hierarchy first;
`level` is the number of them. `0` is an id that cannot be read. -/
structure Cgroup where
  id : CgroupID
  ancestors : List CgroupID
  deriving DecidableEq, Repr

inductive TrackerLog
  | failToResolveCgroupId
  | failToResolveParentCgroupId
  deriving DecidableEq, Repr

/-- `cgroup_get_parent_id`; `hasAncestors` is `bpf_core_field_exists(cgrp_new->ancestors)`. -/
def cgroupGetParentId (hasAncestors : Bool) (cgrp : Cgroup) : CgroupID :=
  if hasAncestors then
    let level := cgrp.ancestors.length
    if level ≤ 0 then 0 else (cgrp.ancestors[level - 1]?).getD 0
  else
    -- `cgrp->self.parent`
    match cgrp.ancestors.getLast? with
    | some parent => parent
    | none => 0

/-- The id of the parent, `0` at the root of a hierarchy. -/
def Cgroup.parentId (cgrp : Cgroup) : CgroupID := cgrp.ancestors.getLast?.getD 0

@[simp] theorem cgroupGetParentId_eq (hasAncestors : Bool) (cgrp : Cgroup) :
    cgroupGetParentId hasAncestors cgrp = cgrp.parentId := by
  unfold cgroupGetParentId Cgroup.parentId
  cases hasAncestors with
  | false => cases cgrp.ancestors.getLast? <;> rfl
  | true =>
    rw [List.getLast?_eq_getElem?]
    by_cases h : cgrp.ancestors.length ≤ 0
    · simp [List.length_eq_zero_iff.mp (Nat.le_zero.mp h)]
    · simp [h]

def tgCgtrackerCgroupMkdir (hasAncestors : Bool) (cgrp : Cgroup) (m : BpfMaps) :
    BpfMaps × List TrackerLog :=
  let cgid := cgrp.id
  if cgid = 0 then (m, [.failToResolveCgroupId])
  else
    let cgidParent := cgroupGetParentId hasAncestors cgrp
    if cgidParent = 0 then (m, [.failToResolveParentCgroupId])
    else
      match m.cgtracker cgidParent with
      | some cgidTracker => (m.setCgtracker cgid cgidTracker, [])
      | none => (m, [])

def tgCgtrackerCgroupRelease (cgrp : Cgroup) (m : BpfMaps) : BpfMaps × List TrackerLog :=
  let cgid := cgrp.id
  if cgid = 0 then (m, [.failToResolveCgroupId])
  else ({ m with cgtracker := Function.update m.cgtracker cgid none }, [])

/-- The new cgroup's entry is its parent's, where the parent has one; nothing else changes. -/
theorem cgtracker_mkdir {hasAncestors : Bool} {cgrp : Cgroup} {m : BpfMaps} (c : CgroupID) :
    (tgCgtrackerCgroupMkdir hasAncestors cgrp m).1.cgtracker c
      = if c = cgrp.id ∧ cgrp.id ≠ 0 ∧ cgrp.parentId ≠ 0 then
          (m.cgtracker cgrp.parentId).or (m.cgtracker c)
        else m.cgtracker c := by
  unfold tgCgtrackerCgroupMkdir
  rw [cgroupGetParentId_eq]
  by_cases hid : cgrp.id = 0
  · simp [hid]
  by_cases hp : cgrp.parentId = 0
  · simp [hid, hp]
  simp only [hid, hp, if_false, ne_eq, not_false_eq_true, and_true]
  cases h : m.cgtracker cgrp.parentId with
  | none => simp
  | some tracker =>
    by_cases hc : c = cgrp.id
    · simp [BpfMaps.setCgtracker, hc]
    · simp [BpfMaps.setCgtracker, hc]

theorem cgtracker_release {cgrp : Cgroup} {m : BpfMaps} (c : CgroupID) :
    (tgCgtrackerCgroupRelease cgrp m).1.cgtracker c
      = if c = cgrp.id ∧ cgrp.id ≠ 0 then none else m.cgtracker c := by
  unfold tgCgtrackerCgroupRelease
  by_cases hid : cgrp.id = 0
  · simp [hid]
  · by_cases hc : c = cgrp.id
    · simp [hid, hc]
    · simp [hid, hc]

end RuntimeEnforcer.Hook
