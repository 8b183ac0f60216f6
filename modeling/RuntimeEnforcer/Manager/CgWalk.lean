import RuntimeEnforcer.Bpf.CgTracker
import RuntimeEnforcer.Lib.Run
import RuntimeEnforcer.Manager.Cgroups

/-!
# Walking a cgroup tree that grows

`UpdateCgTrackerMap` (`internal/bpf/cgtracker.go`), one step at a time. `Manager/Cgroups.lean` has
the call as a whole, with what `WalkDir` finds as a given; here the tree is there to be walked, and
the container creates further cgroups in it while the walk is under way. `filepath.WalkDir` visits
a directory before it reads its entries, reads them all at once, and goes down into them in the
order of their names.

A cgroup is created in two steps, since the kernel fires the `cgroup_mkdir` tracepoint before it
activates the kernfs node: first the hook runs, and some time later the directory can be seen. No
map update and no path lookup fails here. `done` is a history variable, the steps the walk has
taken, newest first.
-/

set_option autoImplicit false

namespace RuntimeEnforcer

open Lib Hook

namespace CgWalk

/-- A cgroup and the name of its directory. -/
structure Dir where
  name : String
  cgroup : Cgroup
  deriving DecidableEq, Repr

def Dir.id (d : Dir) : CgroupID := d.cgroup.id
def Dir.parent (d : Dir) : CgroupID := d.cgroup.parentId

/-- One step of `UpdateCgTrackerMap`: the container's own entry, the callback of `WalkDir` on a
directory, or the `ReadDir` of one. In a `State`, `dirs` are the directories below the container's
that can be seen, `created` the cgroups whose hook has run and that cannot be seen yet, and `todo`
is what is left of the walk. The hook of a new cgroup (`mkdir`) and the moment its directory becomes
visible (`activate`) come in between the steps of the walk. -/
inductive Item
  | insert
  | visit (d : Dir)
  | read (d : Dir)
  deriving DecidableEq, Repr

structure State where
  maps : BpfMaps
  dirs : List Dir
  created : List Dir
  todo : List Item
  done : List Item := []

inductive Event
  | walk
  | mkdir (d : Dir)
  | activate (d : Dir)
  deriving DecidableEq, Repr

/-- The entries `ReadDir` answers, sorted by name. -/
def State.children (s : State) (d : Dir) : List Dir :=
  (s.dirs.filter fun e => e.parent = d.id).mergeSort fun a b => a.name ≤ b.name

/-- The first step of what is left of `UpdateCgTrackerMap(root, path)`. -/
def State.walk (root : Dir) (s : State) : State :=
  match s.todo with
  | [] => s
  | .insert :: rest =>
    { s with maps := s.maps.setCgtracker root.id root.id, todo := rest, done := .insert :: s.done }
  | .visit d :: rest =>
    -- `p == cgroupPath`: the container's own entry is there already
    { s with
      maps := if d.id = root.id then s.maps else s.maps.setCgtracker d.id root.id
      todo := .read d :: rest
      done := .visit d :: s.done }
  | .read d :: rest =>
    { s with todo := (s.children d).map .visit ++ rest, done := .read d :: s.done }

def step (hasAncestors : Bool) (root : Dir) : Event → State → State
  | .walk, s => s.walk root
  | .mkdir d, s =>
    { s with
      maps := (tgCgtrackerCgroupMkdir hasAncestors d.cgroup s.maps).1
      created := d :: s.created }
  | .activate d, s => { s with dirs := d :: s.dirs, created := s.created.erase d }

def start (root : Dir) (maps : BpfMaps) (dirs : List Dir) : State where
  maps
  dirs
  created := []
  todo := [.insert, .visit root]

/-- A tree below `root`: each directory has an id of its own, and a parent. -/
inductive Tree (root : Dir) : List Dir → Prop
  | nil : Tree root []
  | cons {d : Dir} {ds : List Dir} (rest : Tree root ds) (id_ne : d.id ≠ 0)
      (ne_root : d.id ≠ root.id) (fresh : ∀ e ∈ ds, e.id ≠ d.id)
      (parent : d.parent = root.id ∨ ∃ p ∈ ds, p.id = d.parent) : Tree root (d :: ds)

/-- A new cgroup has a new id and a parent in the tree, and what becomes visible was created. -/
def Legal (root : Dir) (s : State) : Event → Prop
  | .walk => True
  | .mkdir d => d.id ≠ 0 ∧ d.id ≠ root.id ∧ (∀ e ∈ s.dirs ++ s.created, e.id ≠ d.id) ∧
    (d.parent = root.id ∨ ∃ p ∈ s.dirs ++ s.created, p.id = d.parent)
  | .activate d => d ∈ s.created

instance (root : Dir) (s : State) : (e : Event) → Decidable (Legal root s e)
  | .walk => .isTrue trivial
  | .mkdir d => by unfold Legal; infer_instance
  | .activate d => by unfold Legal; infer_instance

def State.Finished (s : State) : Prop := s.todo = [] ∧ s.created = []

instance (s : State) : Decidable s.Finished := by unfold State.Finished; infer_instance

/-- The container's cgroup and every one below it has an entry with the container's id. -/
def State.AllTracked (root : Dir) (s : State) : Prop :=
  s.maps.cgtracker root.id = some root.id ∧
  ∀ d ∈ s.dirs, s.maps.cgtracker d.id = some root.id

def State.found (root : Dir) (s : State) : List CgroupID :=
  s.done.reverse.filterMap fun
    | .visit d => if d.id = root.id then none else some d.id
    | _ => none

@[simp] theorem mem_children {s : State} {d e : Dir} :
    e ∈ s.children d ↔ e ∈ s.dirs ∧ e.parent = d.id := by
  simp [State.children, List.mem_mergeSort]

/-- The hook, on a cgroup of the tree. -/
theorem cgtracker_step_mkdir {hasAncestors : Bool} {root d : Dir} {s : State} (hid : d.id ≠ 0)
    (hp : d.parent ≠ 0) (c : CgroupID) :
    (step hasAncestors root (.mkdir d) s).maps.cgtracker c
      = if c = d.id then (s.maps.cgtracker d.parent).or (s.maps.cgtracker c)
        else s.maps.cgtracker c := by
  show (tgCgtrackerCgroupMkdir hasAncestors d.cgroup s.maps).1.cgtracker c = _
  rw [cgtracker_mkdir]
  by_cases hc : c = d.id
  · rw [if_pos ⟨hc, hid, hp⟩, if_pos hc]
    rfl
  · rw [if_neg fun h => hc h.1, if_neg hc]

end CgWalk

end RuntimeEnforcer
