import RuntimeEnforcer.Bpf.CgTracker
import RuntimeEnforcer.Bpf.Enforce
import RuntimeEnforcer.Lib.Run
import RuntimeEnforcer.Manager.Cgroups

/-!
# One tracker, many hierarchies

On cgroup v1 and on a hybrid host every controller has a hierarchy of its own, and the kernel
numbers the cgroups of each hierarchy separately. Userspace and the exec hook stay within the
memory hierarchy; the tracker hooks fire for all of them, and `cgtracker_map` is keyed by the bare
number. An event of another hierarchy is invisible to the containers as long as it does not change
the entry of a number the memory hierarchy uses.
-/

set_option autoImplicit false

namespace RuntimeEnforcer

open Lib Hook

namespace Hierarchies

abbrev Hierarchy := Nat

/-- What happens to the tracker on a host. -/
inductive Event
  | mkdir (h : Hierarchy) (cgrp : Cgroup)
  | release (h : Hierarchy) (cgrp : Cgroup)
  | insert (cg : CgroupID) (path : String)
  deriving DecidableEq, Repr

/-- Neither hook is told which hierarchy its cgroup is in. -/
def step (env : ManagerEnv) (hasAncestors : Bool) : Event → World → World
  | .mkdir _ cgrp, w =>
    { w with maps := (tgCgtrackerCgroupMkdir hasAncestors cgrp w.maps).1, past := w.history }
  | .release _ cgrp, w =>
    { w with maps := (tgCgtrackerCgroupRelease cgrp w.maps).1, past := w.history }
  | .insert cg path, w => after (updateCgTrackerMap env cg path w)

/-- The events of the memory hierarchy; userspace inserts ids of that hierarchy only. -/
def Event.inMemory (memory : Hierarchy) : Event → Bool
  | .mkdir h _ => h = memory
  | .release h _ => h = memory
  | .insert _ _ => true

/-- `mem`, a set of cgroups of the memory hierarchy, has the parent of each of its cgroups. -/
def Event.Within (memory : Hierarchy) (mem : CgroupID → Prop) : Event → Prop
  | .mkdir h cgrp => h = memory → mem cgrp.id → mem cgrp.parentId
  | _ => True

/-- An event of another hierarchy that leaves the entries of `mem` as they are. A new cgroup whose
number the memory hierarchy uses has an untracked parent, or one with the entry that number has
already; a released one has no entry. -/
def Harmless (mem : CgroupID → Prop) (w : World) : Event → Prop
  | .mkdir _ cgrp => mem cgrp.id → cgrp.id ≠ 0 → cgrp.parentId ≠ 0 →
    w.maps.cgtracker cgrp.parentId = none ∨
    w.maps.cgtracker cgrp.parentId = w.maps.cgtracker cgrp.id
  | .release _ cgrp => mem cgrp.id → cgrp.id ≠ 0 → w.maps.cgtracker cgrp.id = none
  | .insert _ _ => True

/-- Two hosts on which the memory hierarchy is tracked alike. -/
structure Agree (mem : CgroupID → Prop) (w w' : World) : Prop where
  clock : w.clock = w'.clock
  entry : ∀ c, mem c → w.maps.cgtracker c = w'.maps.cgtracker c

section

variable {env : ManagerEnv} {hasAncestors : Bool} {memory : Hierarchy} {mem : CgroupID → Prop}
  {w w' : World}

theorem Agree.set (h : Agree mem w w') (c v : CgroupID) :
    Agree mem ⟨w.maps.setCgtracker c v, w.clock + 1, w.history⟩
      ⟨w'.maps.setCgtracker c v, w'.clock + 1, w'.history⟩ where
  clock := congrArg (· + 1) h.clock
  entry d hd := by rw [BpfMaps.cgtracker_setCgtracker, BpfMaps.cgtracker_setCgtracker, h.entry d hd]

theorem Agree.tick (h : Agree mem w w') :
    Agree mem { w with clock := w.clock + 1 } { w' with clock := w'.clock + 1 } :=
  ⟨congrArg (· + 1) h.clock, h.entry⟩

theorem Agree.trackNested (env : ManagerEnv) (h : Agree mem w w') (cg c : CgroupID) :
    ∃ v v', trackNested env cg c w = .ok () v ∧ trackNested env cg c w' = .ok () v' ∧
      Agree mem v v' := by
  have hclock := h.clock
  unfold RuntimeEnforcer.trackNested
  cases hf : env.fault w.clock with
  | some errno =>
    refine ⟨_, _, rfl, ?_, h.tick⟩
    rw [← hclock, hf]
  | none =>
    refine ⟨_, _, rfl, ?_, h.set c cg⟩
    rw [← hclock, hf]

theorem Agree.forM_trackNested (env : ManagerEnv) (h : Agree mem w w') (cg : CgroupID)
    (nested : List CgroupID) :
    ∃ v v', nested.forM (RuntimeEnforcer.trackNested env cg) w = .ok () v ∧
      nested.forM (RuntimeEnforcer.trackNested env cg) w' = .ok () v' ∧ Agree mem v v' := by
  induction nested generalizing w w' with
  | nil => exact ⟨w, w', rfl, rfl, h⟩
  | cons c cs ih =>
    obtain ⟨v, v', hv, hv', hvv⟩ := h.trackNested env cg c
    obtain ⟨u, u', hu, hu', huu⟩ := ih hvv
    refine ⟨u, u', ?_, ?_, huu⟩
    · rw [List.forM_eq_forM, List.forM_cons, bind_of_ok hv]
      exact hu
    · rw [List.forM_eq_forM, List.forM_cons, bind_of_ok hv']
      exact hu'

theorem Agree.insert (h : Agree mem w w') (cg : CgroupID) (path : String) :
    Agree mem (after (updateCgTrackerMap env cg path w))
      (after (updateCgTrackerMap env cg path w')) := by
  unfold updateCgTrackerMap
  cases hf : env.fault w.clock with
  | some errno =>
    have hw : syscall env (.updateTracker cg) (fun m => m.setCgtracker cg cg) w
        = .error (.updateTracker cg errno) { w with clock := w.clock + 1 } := by
      simp [syscall, hf]
    have hw' : syscall env (.updateTracker cg) (fun m => m.setCgtracker cg cg) w'
        = .error (.updateTracker cg errno) { w' with clock := w'.clock + 1 } := by
      simp [syscall, ← h.clock, hf]
    rw [bind_of_error hw, bind_of_error hw']
    exact h.tick
  | none =>
    have hw : syscall env (.updateTracker cg) (fun m => m.setCgtracker cg cg) w
        = .ok () ⟨w.maps.setCgtracker cg cg, w.clock + 1, w.history⟩ := by
      simp [syscall, hf]
    have hw' : syscall env (.updateTracker cg) (fun m => m.setCgtracker cg cg) w'
        = .ok () ⟨w'.maps.setCgtracker cg cg, w'.clock + 1, w'.history⟩ := by
      simp [syscall, ← h.clock, hf]
    have hset := h.set cg cg
    rw [bind_of_ok hw, bind_of_ok hw']
    -- the path is walked at the same time on both
    have hget : ∀ v : World, (get : BpfM World) v = .ok v v := fun _ => rfl
    rw [bind_of_ok (hget _), bind_of_ok (hget _)]
    by_cases hpath : path = ""
    · simp only [ne_eq, hpath, not_true_eq_false, if_false]
      exact hset
    · simp only [ne_eq, hpath, not_false_eq_true, if_true]
      obtain ⟨v, v', hv, hv', hvv⟩ := hset.forM_trackNested env cg (env.nested (w.clock + 1) path)
      have hwhen : env.nested (w'.clock + 1) path = env.nested (w.clock + 1) path := by
        rw [h.clock]
      rw [hwhen, after_of_ok hv, after_of_ok hv']
      exact hvv

theorem Agree.low {e : Event} (he : e.Within memory mem) (hlow : e.inMemory memory = true)
    (h : Agree mem w w') : Agree mem (step env hasAncestors e w) (step env hasAncestors e w') := by
  cases e with
  | mkdir hier cgrp =>
    refine ⟨h.clock, fun c hc => ?_⟩
    show (tgCgtrackerCgroupMkdir _ _ _).1.cgtracker c = (tgCgtrackerCgroupMkdir _ _ _).1.cgtracker c
    rw [cgtracker_mkdir, cgtracker_mkdir]
    split
    · next hcase =>
      have hparent := he (of_decide_eq_true hlow) (hcase.1 ▸ hc)
      rw [h.entry c hc, h.entry _ hparent]
    · exact h.entry c hc
  | release hier cgrp =>
    refine ⟨h.clock, fun c hc => ?_⟩
    show (tgCgtrackerCgroupRelease _ _).1.cgtracker c = (tgCgtrackerCgroupRelease _ _).1.cgtracker c
    rw [cgtracker_release, cgtracker_release, h.entry c hc]
  | insert cg path => exact h.insert cg path

theorem Agree.high {e : Event} (hhigh : e.inMemory memory = false) (h : Agree mem w w') :
    Agree mem (step env hasAncestors e w) w' ↔ Harmless mem w e := by
  -- against the entries before the event rather than those of the other host
  have hself : Agree mem (step env hasAncestors e w) w' ↔
      ∀ c, mem c → (step env hasAncestors e w).maps.cgtracker c = w.maps.cgtracker c := by
    constructor
    · exact fun h' c hc => (h'.entry c hc).trans (h.entry c hc).symm
    · intro h'
      refine ⟨?_, fun c hc => (h' c hc).trans (h.entry c hc)⟩
      cases e with
      | mkdir hier cgrp => exact h.clock
      | release hier cgrp => exact h.clock
      | insert cg path => exact absurd hhigh (by simp [Event.inMemory])
  rw [hself]
  cases e with
  | insert cg path => exact absurd hhigh (by simp [Event.inMemory])
  | mkdir hier cgrp =>
    have hor : ∀ a b : Option CgroupID, a.or b = b ↔ a = none ∨ a = b := by
      intro a b
      cases a <;> simp
    simp only [step, cgtracker_mkdir, Harmless]
    constructor
    · intro h' hm hid hp
      have hown := h' cgrp.id hm
      rwa [if_pos ⟨rfl, hid, hp⟩, hor] at hown
    · intro h' c hc
      split
      · next hcase =>
        obtain ⟨rfl, hid, hp⟩ := hcase
        exact (hor _ _).mpr (h' hc hid hp)
      · rfl
  | release hier cgrp =>
    simp only [step, cgtracker_release, Harmless]
    constructor
    · intro h' hm hid
      have hown := h' cgrp.id hm
      rw [if_pos ⟨rfl, hid⟩] at hown
      exact hown.symm
    · intro h' c hc
      split
      · next hcase =>
        obtain ⟨rfl, hid⟩ := hcase
        exact (h' hc hid).symm
      · rfl

theorem agree_iff_harmless {es : List Event} (hes : ∀ e ∈ es, e.Within memory mem) :
    (∀ n, Agree mem (run (step env hasAncestors) (es.take n) w)
      (run (step env hasAncestors) ((es.take n).filter (Event.inMemory memory)) w)) ↔
    Along (step env hasAncestors) (fun w e => e.inMemory memory = false → Harmless mem w e) es w :=
  related_filter_iff (fun _ _ _ he hlow h => h.low he hlow) (fun _ _ _ _ hhigh h => h.high hhigh)
    hes ⟨rfl, fun _ _ => rfl⟩

/-- The hooks take no system call: the clocks agree whatever the other hierarchies do. -/
theorem clock_eq_filter (es : List Event) (w : World) (n : Nat) :
    (run (step env hasAncestors) (es.take n) w).clock
      = (run (step env hasAncestors) ((es.take n).filter (Event.inMemory memory)) w).clock := by
  have hnone : ∀ e ∈ es, e.Within memory fun _ => False := fun e _ => by
    cases e with
    | mkdir h cgrp => exact fun _ hf => hf
    | release h cgrp => trivial
    | insert cg path => trivial
  have htriv : Along (step env hasAncestors) (fun _ _ => True) es w :=
    along_of_forall fun _ _ => trivial
  refine ((agree_iff_harmless hnone).mpr (htriv.mono fun w e _ _ => ?_) n).clock
  cases e with
  | mkdir h cgrp => exact fun hf => hf.elim
  | release h cgrp => exact fun hf => hf.elim
  | insert cg path => trivial

theorem Agree.getTrackerIdFromTask (h : Agree mem w w') {conf : LoadConf}
    (hv1 : conf.cgrpFsMagic ≠ cgroup2SuperMagic) {css : CssSet}
    (hcss : mem (css.subsys conf.cgrpv1SubsysIdx)) :
    getTrackerIdFromTask w.maps conf (some css) = getTrackerIdFromTask w'.maps conf (some css) := by
  simp only [Hook.getTrackerIdFromTask, getTaskCgroup, if_neg hv1, cgrpGetTrackerId]
  by_cases hidx : conf.cgrpv1SubsysIdx > pidsCgrpId
  · simp [hidx]
  · simp only [if_neg hidx, h.entry _ hcss]

end

/-- **Other hierarchies do not drive tracking** as long as each of their events is harmless where
it arrives, and only as long as that. At every moment of every run the entries of the memory
hierarchy, and so the trackers found for its tasks, are those of the run without the other
hierarchies. -/
theorem memory_tracking_iff_harmless (env : ManagerEnv) (hasAncestors : Bool) (conf : LoadConf)
    (mem : CgroupID → Prop) (es : List Event) (w : World)
    (hv1 : conf.cgrpFsMagic ≠ cgroup2SuperMagic)
    (hes : ∀ e ∈ es, e.Within conf.cgrpv1SubsysIdx mem) :
    (∀ n,
      (∀ cg, mem cg →
        (run (step env hasAncestors) (es.take n) w).maps.cgtracker cg
          = (run (step env hasAncestors)
              ((es.take n).filter (Event.inMemory conf.cgrpv1SubsysIdx)) w).maps.cgtracker cg) ∧
      ∀ css : CssSet, mem (css.subsys conf.cgrpv1SubsysIdx) →
        getTrackerIdFromTask (run (step env hasAncestors) (es.take n) w).maps conf (some css)
          = getTrackerIdFromTask (run (step env hasAncestors)
              ((es.take n).filter (Event.inMemory conf.cgrpv1SubsysIdx)) w).maps conf (some css)) ↔
    Along (step env hasAncestors)
      (fun w e => e.inMemory conf.cgrpv1SubsysIdx = false → Harmless mem w e) es w := by
  rw [← agree_iff_harmless hes]
  refine forall_congr' fun n => ⟨fun h => ⟨?_, h.1⟩, fun h => ⟨h.entry, fun css hcss => ?_⟩⟩
  · exact clock_eq_filter es w n
  · exact h.getTrackerIdFromTask hv1 hcss

namespace Sample

/-- A cgroup v1 host whose memory controller has index 4. -/
def v1 : LoadConf where
  cgrpFsMagic := 0x01021994
  hostMntNsInum := 0
  cgrpv1SubsysIdx := 4
  learningEnabled := true

/-- Container 7 is tracked, makes a nested cgroup, and the pids hierarchy makes and removes one of
its own, with a number the memory hierarchy does not use. -/
def apart : List Event :=
  [.insert 7 "", .mkdir 4 ⟨8, [1, 7]⟩, .mkdir 11 ⟨9, [1]⟩, .release 11 ⟨9, [1]⟩]

theorem memory_tracking_iff_harmless_apart :
    (∀ e ∈ apart, e.Within v1.cgrpv1SubsysIdx fun c => c = 1 ∨ c = 7 ∨ c = 8) ∧
    Along (step .calm true) (fun w e => e.inMemory v1.cgrpv1SubsysIdx = false →
      Harmless (fun c => c = 1 ∨ c = 7 ∨ c = 8) w e) apart { maps := .empty } ∧
    ∀ n, ∀ cg, cg = 1 ∨ cg = 7 ∨ cg = 8 →
      (run (step .calm true) (apart.take n) { maps := .empty }).maps.cgtracker cg
        = (run (step .calm true) ((apart.take n).filter (Event.inMemory v1.cgrpv1SubsysIdx))
            { maps := .empty }).maps.cgtracker cg := by
  have hes : ∀ e ∈ apart, e.Within v1.cgrpv1SubsysIdx fun c => c = 1 ∨ c = 7 ∨ c = 8 := by
    simp [apart, Event.Within, v1, Cgroup.parentId]
  have hharm : Along (step .calm true) (fun w e => e.inMemory v1.cgrpv1SubsysIdx = false →
      Harmless (fun c => c = 1 ∨ c = 7 ∨ c = 8) w e) apart { maps := .empty } := by
    simp [apart, Along, Event.inMemory, v1, Harmless]
  exact ⟨hes, hharm, fun n => ((memory_tracking_iff_harmless .calm true v1 _ apart
    { maps := .empty } (by decide) hes).mpr hharm n).1⟩

/-- Container 7 is tracked, and cgroup 7 of the pids hierarchy is removed: the tasks of the
container are not found any more. -/
theorem container_untracked :
    getTrackerIdFromTask (run (step .calm true) [.insert 7 "", .release 11 ⟨7, [1]⟩]
      { maps := .empty }).maps v1 (some ⟨0, fun _ => 7⟩) = 0 ∧
    getTrackerIdFromTask (run (step .calm true)
      ([.insert 7 "", .release 11 ⟨7, [1]⟩].filter (Event.inMemory v1.cgrpv1SubsysIdx))
      { maps := .empty }).maps v1 (some ⟨0, fun _ => 7⟩) = 7 := by
  decide

end Sample

end Hierarchies

end RuntimeEnforcer
