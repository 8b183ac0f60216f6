import RuntimeEnforcer.Manager.World

/-!
# Binding and tracking cgroups

`internal/bpf/cgroup_policy.go` and `internal/bpf/cgtracker.go`: the operations on
`cg_to_policy_map` and on `cgtracker_map`. A cgroup is bound with `UpdateNoExist`, so an existing
binding is never overwritten; a policy is unbound from all its cgroups with one batch delete; and
a container's cgroup is tracked together with those found below it.
-/

set_option autoImplicit false

namespace RuntimeEnforcer

open Lib

inductive CgroupPolicyOperation
  | addPolicyToCgroups
  | removePolicy
  | removeCgroups
  deriving DecidableEq, Repr

def addPolicyToCgroup (env : ManagerEnv) (targetPolID : PolicyID) (cg : CgroupID) : BpfM Unit := do
  let w ← get
  match w.maps.cgToPolicy.lookup cg with
  | none => syscall env (.addCgroup cg targetPolID) fun m => m.bindCgroup cg targetPolID
  | some existingPolID =>
    -- the update answers `ErrKeyExist`, and the entry is read back
    unseen env (.addCgroup cg targetPolID)
    unseen env (.lookupCgroup cg)
    if existingPolID ≠ targetPolID then throw (.overlapping cg existingPolID targetPolID)

def addPolicyToCgroups (env : ManagerEnv) (targetPolID : PolicyID) (cgs : List CgroupID) :
    BpfM Unit :=
  if targetPolID = 0 then throw .addToPolicyZero
  else cgs.forM (addPolicyToCgroup env targetPolID)

/-- The cgroups bound to `targetPolID`, in the order the map is iterated. -/
def cgroupsOf (env : ManagerEnv) (targetPolID : PolicyID) (w : World) : List CgroupID :=
  ((env.cgroups.range w.clock w.maps.cgToPolicy).filter fun e => e.2 = targetPolID).map Sigma.fst

def removePolicyFromCgroups (env : ManagerEnv) (targetPolID : PolicyID) : BpfM Unit :=
  if targetPolID = 0 then throw .removePolicyZero
  else do
    unseen env .iterate
    let w ← get
    let cgs := cgroupsOf env targetPolID w
    if cgs.length = 0 then pure () else batchDelete env cgs

/-- One cgroup of `removeCgroups`: a missing key is no error, and any other error is kept. -/
def deleteCgroup (env : ManagerEnv) (failed : List (CgroupID × String)) (cg : CgroupID) :
    BpfM (List (CgroupID × String)) := fun w =>
  match env.fault w.clock with
  | some errno => .ok (failed ++ [(cg, errno)]) { w with clock := w.clock + 1 }
  | none => .ok failed { maps := w.maps.unbindCgroup cg, clock := w.clock + 1, past := w.history }

def removeCgroups (env : ManagerEnv) (targetPolID : PolicyID) (cgs : List CgroupID) : BpfM Unit :=
  if targetPolID ≠ 0 then throw (.policyNotZero targetPolID)
  else do
    let failed ← cgs.foldlM (deleteCgroup env) []
    if failed.length ≠ 0 then throw (.removeCgroups failed)

def updateCgroupPolicy (env : ManagerEnv) (targetPolID : PolicyID) (cgs : List CgroupID) :
    CgroupPolicyOperation → BpfM Unit
  | .addPolicyToCgroups => addPolicyToCgroups env targetPolID cgs
  | .removePolicy => removePolicyFromCgroups env targetPolID
  | .removeCgroups => removeCgroups env targetPolID cgs

def cgroupPolicyUpdate (env : ManagerEnv) (polID : PolicyID) (cgs : List CgroupID)
    (op : CgroupPolicyOperation) : BpfM Unit :=
  handleErrOnShutdown env (updateCgroupPolicy env polID cgs op)

def trackNested (env : ManagerEnv) (cg nested : CgroupID) : BpfM Unit := fun w =>
  match env.fault w.clock with
  | some _ => .ok () { w with clock := w.clock + 1 }
  | none => .ok ()
      { maps := w.maps.setCgtracker nested cg, clock := w.clock + 1, past := w.history }

def updateCgTrackerMap (env : ManagerEnv) (cg : CgroupID) (cgroupPath : String) : BpfM Unit := do
  syscall env (.updateTracker cg) fun m => m.setCgtracker cg cg
  let w ← get
  if cgroupPath ≠ "" then (env.nested w.clock cgroupPath).forM (trackNested env cg)

def cgroupTrackerUpdate (env : ManagerEnv) (cg : CgroupID) (cgroupPath : String) : BpfM Unit :=
  handleErrOnShutdown env (updateCgTrackerMap env cg cgroupPath)

/-! ## What the operations do to the maps -/

/-- `m` is `m₀` with `cg` bound to `id`. -/
structure Binds (cg : CgroupID) (id : PolicyID) (m₀ m : BpfMaps) : Prop where
  cgtracker : m.cgtracker = m₀.cgtracker
  polStrMaps : m.polStrMaps = m₀.polStrMaps
  policySettings : m.policySettings = m₀.policySettings
  lookup : ∀ c, m.cgToPolicy.lookup c = if c = cg then some id else m₀.cgToPolicy.lookup c

/-- `m` is `m₀` with some of the cgroups of `id` unbound. -/
structure Releases (id : PolicyID) (m₀ m : BpfMaps) : Prop where
  cgtracker : m.cgtracker = m₀.cgtracker
  polStrMaps : m.polStrMaps = m₀.polStrMaps
  policySettings : m.policySettings = m₀.policySettings
  lookup : ∀ c, m.cgToPolicy.lookup c = m₀.cgToPolicy.lookup c ∨
    m₀.cgToPolicy.lookup c = some id ∧ m.cgToPolicy.lookup c = none

/-- Only the tracker differs. -/
structure Tracks (m₀ m : BpfMaps) : Prop where
  cgToPolicy : m.cgToPolicy = m₀.cgToPolicy
  polStrMaps : m.polStrMaps = m₀.polStrMaps
  policySettings : m.policySettings = m₀.policySettings

section

variable {env : ManagerEnv} {id : PolicyID} {cg : CgroupID} {w : World}

theorem addPolicyToCgroup_ends :
    Ends (addPolicyToCgroup env id cg w)
      (fun _ w' => (w.maps.cgToPolicy.lookup cg = none ∨ w.maps.cgToPolicy.lookup cg = some id) ∧
        Runs env (Binds cg id w.maps) w w' ∧ Binds cg id w.maps w'.maps)
      (fun _ w' => Fails env
        (w.maps.cgToPolicy.lookup cg = none ∨ w.maps.cgToPolicy.lookup cg = some id)
        (fun _ => False) w w') := by
  unfold addPolicyToCgroup
  refine Ends.bind (ends_ok.mpr ?_)
  cases hl : w.maps.cgToPolicy.lookup cg with
  | none =>
    have hb : Binds cg id w.maps (w.maps.bindCgroup cg id) := ⟨rfl, rfl, rfl, fun c => by simp⟩
    refine syscall_ends.mono ?_ (fun _ _ h => h.1.mono (fun _ => trivial) fun _ h => h)
    rintro _ w' ⟨hr, hw'⟩
    refine ⟨.inl rfl, hr.mono ?_, hw' ▸ hb⟩
    rintro m rfl
    exact hb
  | some existing =>
    refine Ends.bind (unseen_ends.mono (fun _ w₁ h₁ => ?_)
      (fun _ _ h => h.1.mono (fun _ => trivial) fun _ h => h))
    refine Ends.bind (unseen_ends.mono (fun _ w₂ h₂ => ?_)
      (fun _ _ h => h₁.trans_fails (h.1.mono (fun _ => trivial) fun _ h => h)))
    have hrun := h₁.trans h₂
    by_cases hne : existing = id
    · subst hne
      simp only [ne_eq, not_true_eq_false, if_false]
      have hw₂ : w₂.maps = w.maps := hrun.moves.unchanged
      refine ends_ok.mpr ⟨.inr trivial, hrun.mono fun _ h => h.elim, ?_⟩
      rw [hw₂]
      refine ⟨rfl, rfl, rfl, fun c => ?_⟩
      by_cases hc : c = cg
      · rw [if_pos hc, hc, hl]
      · rw [if_neg hc]
    · simp only [ne_eq, hne, not_false_eq_true, if_true]
      refine ends_error.mpr (hrun.trans_fails ⟨Moves.refl _ _, fun hC => ?_⟩)
      rcases hC with hC | hC
      · exact absurd hC (by simp)
      · exact absurd (Option.some.inj hC) hne

/-- **Bind one cgroup.** An existing binding to another policy is refused. -/
theorem addPolicyToCgroups_ends :
    Ends (addPolicyToCgroups env id [cg] w)
      (fun _ w' => (w.maps.cgToPolicy.lookup cg = none ∨ w.maps.cgToPolicy.lookup cg = some id) ∧
        Runs env (Binds cg id w.maps) w w' ∧ Binds cg id w.maps w'.maps)
      (fun _ w' => Fails env (0 < id ∧
        (w.maps.cgToPolicy.lookup cg = none ∨ w.maps.cgToPolicy.lookup cg = some id))
        (fun _ => False) w w') := by
  unfold addPolicyToCgroups
  by_cases hid : id = 0
  · rw [if_pos hid]
    exact ends_error.mpr ⟨Moves.refl _ _, fun hC => absurd hid (Nat.ne_of_gt hC.1)⟩
  · rw [if_neg hid]
    refine Ends.bind (addPolicyToCgroup_ends.mono (fun _ _ h => h) ?_)
    exact fun _ _ h => h.mono (fun hC => hC.2) fun _ h => h

theorem mem_cgroupsOf {c : CgroupID} :
    c ∈ cgroupsOf env id w ↔ w.maps.cgToPolicy.lookup c = some id := by
  unfold cgroupsOf
  simp only [List.mem_map, List.mem_filter, decide_eq_true_eq]
  constructor
  · rintro ⟨⟨k, v⟩, ⟨hmem, rfl⟩, rfl⟩
    exact (env.cgroups.mem_range w.clock).mp hmem
  · intro h
    exact ⟨⟨c, id⟩, ⟨(env.cgroups.mem_range w.clock).mpr h, rfl⟩, rfl⟩

/-- **Unbind a policy from all its cgroups.** A failing batch may have unbound some. -/
theorem removePolicyFromCgroups_ends :
    Ends (removePolicyFromCgroups env id w)
      (fun _ w' => Runs env (Releases id w.maps) w w' ∧ Releases id w.maps w'.maps ∧
        ∀ c, w'.maps.cgToPolicy.lookup c ≠ some id)
      (fun _ w' => Fails env (0 < id) (Releases id w.maps) w w') := by
  have hrefl : Releases id w.maps w.maps := ⟨rfl, rfl, rfl, fun _ => .inl rfl⟩
  unfold removePolicyFromCgroups
  by_cases hid : id = 0
  · rw [if_pos hid]
    exact ends_error.mpr ⟨Moves.refl _ _, fun hC => absurd hid (Nat.ne_of_gt hC)⟩
  rw [if_neg hid]
  refine Ends.bind (unseen_ends.mono (fun _ w₁ h₁ => ?_)
    (fun _ _ h => h.1.mono (fun _ => trivial) fun _ h => h.elim))
  refine Ends.bind (ends_ok.mpr ?_)
  have hw₁ : w₁.maps = w.maps := h₁.moves.unchanged
  have h₁' : Runs env (Releases id w.maps) w w₁ := h₁.mono fun _ h => h.elim
  by_cases hnil : (cgroupsOf env id w₁).length = 0
  · rw [if_pos hnil]
    refine ends_ok.mpr ⟨h₁', hw₁ ▸ hrefl, fun c hc => ?_⟩
    have hmem : c ∈ cgroupsOf env id w₁ := mem_cgroupsOf.mpr hc
    rw [List.length_eq_zero_iff.mp hnil] at hmem
    exact absurd hmem (by simp)
  rw [if_neg hnil]
  have hstates : ∀ m, Unbinds (cgroupsOf env id w₁) w₁.maps m → Releases id w.maps m := by
    intro m h
    rw [hw₁] at h
    refine ⟨h.cgtracker, h.polStrMaps, h.policySettings, fun c => ?_⟩
    rcases h.lookup c with hc | ⟨hmem, hc⟩
    · exact .inl hc
    · exact .inr ⟨hw₁ ▸ mem_cgroupsOf.mp hmem, hc⟩
  refine batchDelete_ends.mono ?_ ?_
  · rintro _ w₂ ⟨hr, hnone⟩
    have hrun := h₁'.trans (hr.mono hstates)
    have hrel := hrun.moves.maps hrefl
    refine ⟨hrun, hrel, fun c hc => ?_⟩
    -- what is bound to `id` at the end was so at the start, and is one of the deleted
    rcases hrel.lookup c with h | h
    · have hmem : c ∈ cgroupsOf env id w₁ := mem_cgroupsOf.mpr (by rw [hw₁, ← h, hc])
      exact absurd (hnone c hmem) (by rw [hc]; simp)
    · exact absurd h.2 (by rw [hc]; simp)
  · intro _ w₂ hf
    exact h₁'.trans_fails (hf.mono (fun _ => trivial) hstates)

theorem removeCgroups_ends :
    Ends (removeCgroups env 0 [cg] w)
      (fun _ w' => Runs env (· = w.maps.unbindCgroup cg) w w' ∧
        w'.maps = w.maps.unbindCgroup cg)
      (fun _ w' => Fails env True (fun _ => False) w w') := by
  unfold removeCgroups
  rw [if_neg (by simp)]
  refine Ends.bind ?_
  rw [List.foldlM_cons]
  refine Ends.bind ?_
  unfold deleteCgroup
  cases hf : env.fault w.clock with
  | some errno =>
    refine ends_ok.mpr (ends_ok.mpr (ends_error.mpr ⟨⟨by simp, [], rfl, by simp⟩, fun _ hq => ?_⟩))
    exact absurd (hq w.clock (Nat.le_refl _) (by simp)) (by simp [hf])
  | none =>
    refine ends_ok.mpr (ends_ok.mpr (ends_ok.mpr ⟨⟨⟨by simp, [_], rfl, ?_⟩, ?_⟩, rfl⟩))
    · intro m hm
      exact List.mem_singleton.mp hm
    · intro t h₁ h₂
      have : t = w.clock := by simp only at h₂; omega
      rw [this, hf]

theorem trackNested_ends {c : CgroupID} :
    Ends (trackNested env cg c w) (fun _ w' => Moves (Tracks w.maps) w w')
      (fun _ _ => False) := by
  unfold trackNested
  cases env.fault w.clock with
  | some errno => exact ends_ok.mpr ⟨by simp, [], rfl, by simp⟩
  | none =>
    refine ends_ok.mpr ⟨by simp, [_], rfl, fun m hm => ?_⟩
    rw [List.mem_singleton.mp hm]
    exact ⟨rfl, rfl, rfl⟩

/-- **Track a cgroup** and what lies below it. Bindings and policies are untouched. -/
theorem updateCgTrackerMap_ends {path : String} :
    Ends (updateCgTrackerMap env cg path w) (fun _ w' => Moves (Tracks w.maps) w w')
      (fun _ w' => Moves (Tracks w.maps) w w') := by
  have hset : Tracks w.maps (w.maps.setCgtracker cg cg) := ⟨rfl, rfl, rfl⟩
  unfold updateCgTrackerMap
  refine Ends.bind (syscall_ends.mono (fun _ w₁ h₁ => ?_)
    (fun _ _ h => h.1.moves.mono fun _ h => h.elim))
  refine Ends.bind (ends_ok.mpr ?_)
  have hm₁ : Moves (Tracks w.maps) w w₁ := h₁.1.moves.mono (by rintro m rfl; exact hset)
  split
  · refine (Ends.forM (fun _ w₂ => Moves (Tracks w.maps) w w₂) (fun c _ w₂ h₂ => ?_) _ w₁ hm₁)
    refine trackNested_ends.mono (fun _ w₃ h₃ => h₂.trans (h₃.mono fun m hm => ?_))
      (fun _ _ h => h.elim)
    -- what differs only in the tracker from a state that does
    have ht₂ := h₂.maps ⟨rfl, rfl, rfl⟩
    exact ⟨hm.1.trans ht₂.1, hm.2.trans ht₂.2, hm.3.trans ht₂.3⟩
  · exact ends_ok.mpr hm₁

/-- Only the container's own entry can fail to be written. -/
theorem updateCgTrackerMap_of_faultless {path : String} (h : env.fault w.clock = none) :
    Ends (updateCgTrackerMap env cg path w) (fun _ _ => True) (fun _ _ => False) := by
  unfold updateCgTrackerMap syscall
  refine Ends.bind ?_
  simp only [h]
  refine ends_ok.mpr (Ends.bind (ends_ok.mpr ?_))
  split
  · exact Ends.forM (fun _ _ => True)
      (fun c _ w₂ _ => trackNested_ends.mono (fun _ _ _ => trivial) fun _ _ h => h) _ _ trivial
  · exact ends_ok.mpr trivial

theorem updateCgTrackerMap_fault {path : String} :
    Ends (updateCgTrackerMap env cg path w) (fun _ _ => env.fault w.clock = none)
      (fun _ _ => env.fault w.clock ≠ none) := by
  cases h : env.fault w.clock with
  | none =>
    exact (updateCgTrackerMap_of_faultless h).mono (fun _ _ _ => rfl) (fun _ _ hf => hf.elim)
  | some errno =>
    unfold updateCgTrackerMap syscall
    refine Ends.bind ?_
    simp only [h]
    exact ends_error.mpr (by simp)

end

end RuntimeEnforcer
