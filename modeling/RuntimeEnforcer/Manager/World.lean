import RuntimeEnforcer.Lib.Fallible
import RuntimeEnforcer.Bpf.Maps

/-!
# System calls on the BPF maps

Userspace changes the maps one system call at a time, and any of them may fail. A `World` is the
maps together with the number of calls made so far, and `ManagerEnv` decides, call by call, which
of them fail and with what text. A failing call changes nothing, except that a batch delete may
have removed some of its keys.

`World.past` is a history variable: every earlier state of the maps, newest first. The hook runs
concurrently with userspace and sees whatever the maps hold between two calls, so `World.history`
is the list of everything it could have seen.
-/

set_option autoImplicit false

namespace RuntimeEnforcer

open Lib

/-- Why a value cannot be stored (`argStringSelectorValue`). The index expression of the loop that
strips NULs is out of range on a string of NULs only. -/
inductive ValueErr
  | empty
  | tooLong
  | indexOutOfRange
  deriving DecidableEq, Repr

/-- An error of one of the manager's update functions, by the place it is made at. `errno` is the
text of the wrapped error of the system call; of the cgroups that could not be removed the errors
are joined. -/
inductive BpfErr
  | valueInvalid (v : Bytes) (e : ValueErr)
  | unsupportedSize (v : Bytes) (size : Nat)
  | createInner (errno : String)
  | insertValue (name errno : String)
  | insertInner (id : PolicyID) (errno : String)
  | updateInner (id : PolicyID) (errno : String)
  | removeInner (id : PolicyID) (map errno : String)
  | updateSettings (id : PolicyID) (map mode : String) (allowForeignRoot : Bool) (errno : String)
  | deleteSettings (id : PolicyID) (map errno : String)
  | addToPolicyZero
  | addCgroup (cg : CgroupID) (id : PolicyID) (errno : String)
  | lookupCgroup (cg : CgroupID) (errno : String)
  | overlapping (cg : CgroupID) (existing target : PolicyID)
  | removePolicyZero
  | iterate (errno : String)
  | batchDelete (cgs : List CgroupID) (errno : String)
  | policyNotZero (id : PolicyID)
  | removeCgroups (failed : List (CgroupID × String))
  | updateTracker (cg : CgroupID) (errno : String)
  deriving DecidableEq, Repr

def showBytes (b : Bytes) : String := String.ofList (b.map fun c => Char.ofNat c.toNat)

def ValueErr.error : ValueErr → String
  | .empty => "string is empty"
  | .tooLong => "string is too long"
  | .indexOutOfRange => "runtime error: index out of range [-1]"

def BpfErr.error : BpfErr → String
  | .valueInvalid v e => "value " ++ showBytes v ++ " invalid: " ++ e.error
  | .unsupportedSize v size =>
    "value " ++ showBytes v ++ " has unsupported padded size " ++ toString size
  | .createInner errno => s!"failed to create inner_map: {errno}"
  | .insertValue name errno => s!"failed to insert value into {name}: {errno}"
  | .insertInner id errno => s!"failed to insert inner policy (id={id}) map: {errno}"
  | .updateInner id errno => s!"failed to update inner policy (id={id}) map: {errno}"
  | .removeInner id map errno => s!"failed to remove policy (id={id}) from map {map}: {errno}"
  | .updateSettings id map mode allow errno =>
    s!"failed to update policy (id={id}) in map {map} with mode {mode} and " ++
    s!"allowForeignRootExec={allow}: {errno}"
  | .deleteSettings id map errno =>
    s!"failed to delete policy (id={id}) from map {map}: {errno}"
  | .addToPolicyZero => "cannot add cgroups to policy 0"
  | .addCgroup cg id errno => s!"failed to add cgroup {cg} to policy {id}: {errno}"
  | .lookupCgroup cg errno => s!"failed to look up cgroup {cg}: {errno}"
  | .overlapping cg existing target =>
    s!"cgroup {cg} already associated with policy {existing}, cannot assign policy {target}: " ++
    "overlapping policies"
  | .removePolicyZero => "cannot remove policy 0 from the map"
  | .iterate errno => s!"failed to iterate cgroup to policy map: {errno}"
  | .batchDelete cgs errno => s!"failed to remove cgroups {cgs} from policy map: {errno}"
  | .policyNotZero id => s!"policy ID must be 0, got {id}"
  | .removeCgroups failed => "\n".intercalate (failed.map fun (cg, errno) =>
    s!"failed to remove cgroup {cg} from policy map: {errno}")
  | .updateTracker cg errno => s!"failed to update cgroup tracker map for id {cg}: {errno}"

/-- What userspace finds and cannot choose. By the number `n` of the system call: `fault` is its
error, when it fails; `batchDone` is how many keys it has removed if it is a batch delete that
fails; `nested` are the ids of the cgroups found below a path by then, in the order `WalkDir` finds
them; and `isShuttingDown` is the flag of the manager. `mapFull` is the error of an insertion into a
map that is full, `mapString` is `Map.String()` by the name of the map, and `cgroups` is the order
in which `cg_to_policy_map` is iterated.

The manager is up (`running`): while it shuts down it answers every failed update with success, so
that nothing can be said of what the maps hold. -/
structure ManagerEnv where
  fault : Nat → Option String
  batchDone : Nat → Nat
  currKernelVersion : Nat
  mapFull : String
  mapString : String → String
  nested : Nat → String → List CgroupID
  cgroups : Order CgroupID PolicyID
  isShuttingDown : Nat → Bool
  running : ∀ n, isShuttingDown n = false

def ManagerEnv.calm : ManagerEnv where
  fault := fun _ => none
  batchDone := fun _ => 0
  currKernelVersion := kernelVersion 6 1 0
  mapFull := ""
  mapString := id
  nested := fun _ _ => []
  cgroups := .stored
  isShuttingDown := fun _ => false
  running := fun _ => rfl

/-- The maps, and how they came to be. -/
structure World where
  maps : BpfMaps
  clock : Nat := 0
  past : List BpfMaps := []

/-- Every state the maps have been in, the current one first. -/
def World.history (w : World) : List BpfMaps := w.maps :: w.past

abbrev BpfM := EStateM BpfErr World

/-- One system call that changes the maps by `f`. -/
def syscall (env : ManagerEnv) (err : String → BpfErr) (f : BpfMaps → BpfMaps) : BpfM Unit :=
  fun w =>
    match env.fault w.clock with
    | some errno => .error (err errno) { w with clock := w.clock + 1 }
    | none => .ok () { maps := f w.maps, clock := w.clock + 1, past := w.history }

/-- One system call that changes nothing the hook can see. -/
def unseen (env : ManagerEnv) (err : String → BpfErr) : BpfM Unit := fun w =>
  match env.fault w.clock with
  | some errno => .error (err errno) { w with clock := w.clock + 1 }
  | none => .ok () { w with clock := w.clock + 1 }

/-- Unbind the cgroups, one after another. -/
def unbindAll : List CgroupID → World → World
  | [], w => w
  | cg :: cgs, w => unbindAll cgs { w with maps := w.maps.unbindCgroup cg, past := w.history }

/-- `BatchDelete` on `cg_to_policy_map`. -/
def batchDelete (env : ManagerEnv) (cgs : List CgroupID) : BpfM Unit := fun w =>
  match env.fault w.clock with
  | some errno =>
    .error (.batchDelete cgs errno)
      (unbindAll (cgs.take (env.batchDone w.clock)) { w with clock := w.clock + 1 })
  | none => .ok () (unbindAll cgs { w with clock := w.clock + 1 })

/-- `handleErrOnShutdown`, which the update functions that the manager gives to the resolver put
around each of their operations. -/
def handleErrOnShutdown (env : ManagerEnv) (x : BpfM Unit) : BpfM Unit := fun w =>
  match x w with
  | .ok a w' => .ok a w'
  | .error e w' => if env.isShuttingDown w'.clock then .ok () w' else .error e w'

/-- A manager that is up hands every error on. -/
theorem handleErrOnShutdown_eq (env : ManagerEnv) (x : BpfM Unit) :
    handleErrOnShutdown env x = x := by
  funext w
  unfold handleErrOnShutdown
  cases x w with
  | ok a w' => rfl
  | error e w' => simp [env.running]

theorem handled_ends {env : ManagerEnv} {x : BpfM Unit} {w : World} {Q : Unit → World → Prop}
    {E : BpfErr → World → Prop} (h : Ends (x w) Q E) :
    Ends (handleErrOnShutdown env x w) Q E := by
  rw [handleErrOnShutdown_eq]
  exact h

/-! ## What the hook can have seen -/

variable {P : BpfMaps → Prop} {w w' : World} {m : BpfMaps}

/-- From `w` to `w'` the maps went through states of `P` only. -/
def Moves (P : BpfMaps → Prop) (w w' : World) : Prop :=
  w.clock ≤ w'.clock ∧ ∃ seen, w'.history = seen ++ w.history ∧ ∀ m ∈ seen, P m

theorem Moves.refl (P : BpfMaps → Prop) (w : World) : Moves P w w :=
  ⟨Nat.le_refl _, [], rfl, fun _ h => absurd h (by simp)⟩

theorem Moves.trans {w₁ w₂ : World} (h₁ : Moves P w w₁) (h₂ : Moves P w₁ w₂) : Moves P w w₂ := by
  obtain ⟨hc₁, l₁, hl₁, hp₁⟩ := h₁
  obtain ⟨hc₂, l₂, hl₂, hp₂⟩ := h₂
  refine ⟨Nat.le_trans hc₁ hc₂, l₂ ++ l₁, by rw [hl₂, hl₁, List.append_assoc], fun m hm => ?_⟩
  rcases List.mem_append.mp hm with h | h
  · exact hp₂ m h
  · exact hp₁ m h

theorem Moves.mono {Q : BpfMaps → Prop} (h : ∀ m, P m → Q m) (hm : Moves P w w') : Moves Q w w' :=
  ⟨hm.1, hm.2.imp fun _ hl => ⟨hl.1, fun m hm => h m (hl.2 m hm)⟩⟩

/-- What held of every state seen, and of the first, holds of the last. -/
theorem Moves.maps (h : Moves P w w') (hw : P w.maps) : P w'.maps := by
  obtain ⟨_, l, hl, hp⟩ := h
  cases l with
  | nil =>
    simp only [World.history, List.nil_append, List.cons.injEq] at hl
    rw [hl.1]
    exact hw
  | cons m l =>
    simp only [World.history, List.cons_append, List.cons.injEq] at hl
    exact hl.1 ▸ hp m (by simp)

/-- History is never rewritten. -/
theorem Moves.subset (h : Moves P w w') (hm : m ∈ w.history) : m ∈ w'.history := by
  obtain ⟨_, l, hl, _⟩ := h
  rw [hl]
  exact List.mem_append_right l hm

/-- A seen state is in the history or is one of `P`. -/
theorem Moves.mem (h : Moves P w w') (hm : m ∈ w'.history) : m ∈ w.history ∨ P m := by
  obtain ⟨_, l, hl, hp⟩ := h
  rw [hl] at hm
  rcases List.mem_append.mp hm with h | h
  · exact Or.inr (hp m h)
  · exact Or.inl h

theorem Moves.of_mem_seen (h : Moves P w w') {seen : List BpfMaps}
    (hseen : w'.history = seen ++ w.history) (hm : m ∈ seen) : P m := by
  obtain ⟨_, l, hl, hp⟩ := h
  rw [hseen] at hl
  exact hp m (List.append_cancel_right hl ▸ hm)

/-- The states seen are the newest ones. -/
theorem Moves.take_history (h : Moves P w w') {k : Nat}
    (hlen : w'.history.length = k + w.history.length) :
    w'.history = w'.history.take k ++ w.history := by
  obtain ⟨_, l, hl, _⟩ := h
  rw [hl, List.length_append] at hlen
  rw [hl, List.take_left' (by omega)]

/-- Nothing was seen: nothing changed. -/
theorem Moves.unchanged (h : Moves (fun _ => False) w w') : w'.maps = w.maps :=
  (h.mono fun _ hf => hf.elim : Moves (· = w.maps) w w').maps rfl

/-- On the way from `w` to `w'` the maps were in state `m`. -/
def Saw (w w' : World) (m : BpfMaps) : Prop :=
  ∃ w₁, w₁.maps = m ∧ Moves (fun _ => True) w w₁ ∧ Moves (fun _ => True) w₁ w'

theorem Saw.after {w₀ : World} (h₀ : Moves P w₀ w) (h : Saw w w' m) : Saw w₀ w' m :=
  h.imp fun _ h => ⟨h.1, (h₀.mono fun _ _ => trivial).trans h.2.1, h.2.2⟩

theorem Saw.before {w'' : World} (h : Saw w w' m) (h' : Moves P w' w'') : Saw w w'' m :=
  h.imp fun _ h => ⟨h.1, h.2.1, h.2.2.trans (h'.mono fun _ _ => trivial)⟩

/-- A state that is not the first is one the hook can have seen. -/
theorem Saw.mem {seen : List BpfMaps} (h : Saw w w' m) (hne : m ≠ w.maps)
    (hseen : w'.history = seen ++ w.history) : m ∈ seen := by
  obtain ⟨w₁, rfl, ⟨_, l₁, hl₁, _⟩, _, l₂, hl₂, _⟩ := h
  rw [hl₁, ← List.append_assoc, hseen] at hl₂
  rw [List.append_cancel_right hl₂]
  cases l₁ with
  | nil =>
    simp only [World.history, List.nil_append, List.cons.injEq] at hl₁
    exact absurd hl₁.1 hne
  | cons m' l₁ =>
    simp only [World.history, List.cons_append, List.cons.injEq] at hl₁
    simp [hl₁.1]

/-! ## Calls that happened, calls that failed -/

variable {env : ManagerEnv}

/-- No system call from `w` to `w'` failed. -/
def Quiet (env : ManagerEnv) (w w' : World) : Prop :=
  ∀ t, w.clock ≤ t → t < w'.clock → env.fault t = none

/-- From `w` to `w'` through states of `P`, every call succeeding. -/
structure Runs (env : ManagerEnv) (P : BpfMaps → Prop) (w w' : World) : Prop where
  moves : Moves P w w'
  quiet : Quiet env w w'

/-- From `w` to `w'` through states of `P`, and an error. If the input was one that can be served
(`C`), some call failed. -/
structure Fails (env : ManagerEnv) (C : Prop) (P : BpfMaps → Prop) (w w' : World) : Prop where
  moves : Moves P w w'
  fault : C → ¬ Quiet env w w'

section

variable {env : ManagerEnv} {C D : Prop} {P Q : BpfMaps → Prop} {w w₁ w₂ w' : World}

theorem Runs.refl : Runs env P w w :=
  ⟨Moves.refl P w, fun _ h₁ h₂ => absurd h₂ (Nat.not_lt.mpr h₁)⟩

theorem Runs.trans (h₁ : Runs env P w w₁) (h₂ : Runs env P w₁ w₂) : Runs env P w w₂ := by
  refine ⟨h₁.moves.trans h₂.moves, fun t ht ht' => ?_⟩
  by_cases h : t < w₁.clock
  · exact h₁.quiet t ht h
  · exact h₂.quiet t (by omega) ht'

theorem Runs.trans_fails (h₁ : Runs env P w w₁) (h₂ : Fails env C P w₁ w₂) :
    Fails env C P w w₂ := by
  refine ⟨h₁.moves.trans h₂.moves, fun hC hq => h₂.fault hC fun t ht ht' => ?_⟩
  exact hq t (Nat.le_trans h₁.moves.1 ht) ht'

theorem Runs.mono (h : ∀ m, P m → Q m) (hr : Runs env P w w') : Runs env Q w w' :=
  ⟨hr.moves.mono h, hr.quiet⟩

theorem Fails.mono (hC : D → C) (h : ∀ m, P m → Q m) (hr : Fails env C P w w') :
    Fails env D Q w w' :=
  ⟨hr.moves.mono h, fun hD => hr.fault (hC hD)⟩

end

/-- Where no call fails, what can be served is served. -/
theorem isOk_of_faultless {α : Type} {C : Prop} {r : EStateM.Result BpfErr World α}
    {Q : α → World → Prop} (h : Ends r Q (fun _ w' => Fails env C P w w')) (hC : C)
    (henv : ∀ t, env.fault t = none) : isOk r = true := by
  cases r with
  | ok a s => rfl
  | error e s => exact absurd (fun t _ _ => henv t) (h.fault hC)

/-- A call either happens, or fails and changes nothing. -/
theorem syscall_ends {err : String → BpfErr} {f : BpfMaps → BpfMaps} :
    Ends (syscall env err f w)
      (fun _ w' => Runs env (· = f w.maps) w w' ∧ w'.maps = f w.maps)
      (fun e w' => Fails env True (fun _ => False) w w' ∧ ∃ errno, e = err errno) := by
  unfold syscall
  cases hf : env.fault w.clock with
  | some errno =>
    refine ⟨⟨⟨by simp, [], rfl, fun _ h => absurd h (by simp)⟩, fun _ hq => ?_⟩, errno, rfl⟩
    exact absurd (hq w.clock (Nat.le_refl _) (by simp)) (by simp [hf])
  | none =>
    refine ⟨⟨⟨by simp, [f w.maps], rfl, fun m hm => by simpa using hm⟩, fun t h₁ h₂ => ?_⟩, rfl⟩
    have : t = w.clock := by simp only at h₂; omega
    rw [this, hf]

theorem unseen_ends {err : String → BpfErr} :
    Ends (unseen env err w)
      (fun _ w' => Runs env (fun _ => False) w w')
      (fun e w' => Fails env True (fun _ => False) w w' ∧ ∃ errno, e = err errno) := by
  unfold unseen
  cases hf : env.fault w.clock with
  | some errno =>
    refine ⟨⟨⟨by simp, [], rfl, fun _ h => absurd h (by simp)⟩, fun _ hq => ?_⟩, errno, rfl⟩
    exact absurd (hq w.clock (Nat.le_refl _) (by simp)) (by simp [hf])
  | none =>
    refine ⟨⟨by simp, [], rfl, fun _ h => absurd h (by simp)⟩, fun t h₁ h₂ => ?_⟩
    have : t = w.clock := by simp only at h₂; omega
    rw [this, hf]

/-- `m` is `m₀` with some of the cgroups `cgs` unbound. -/
structure Unbinds (cgs : List CgroupID) (m₀ m : BpfMaps) : Prop where
  cgtracker : m.cgtracker = m₀.cgtracker
  polStrMaps : m.polStrMaps = m₀.polStrMaps
  policySettings : m.policySettings = m₀.policySettings
  lookup : ∀ c, m.cgToPolicy.lookup c = m₀.cgToPolicy.lookup c ∨
    c ∈ cgs ∧ m.cgToPolicy.lookup c = none

theorem Unbinds.refl (cgs : List CgroupID) (m : BpfMaps) : Unbinds cgs m m :=
  ⟨rfl, rfl, rfl, fun _ => .inl rfl⟩

theorem Unbinds.cons {c : CgroupID} {cgs : List CgroupID} {m₀ : BpfMaps}
    (h : Unbinds cgs (m₀.unbindCgroup c) m) : Unbinds (c :: cgs) m₀ m := by
  refine ⟨h.cgtracker, h.polStrMaps, h.policySettings, fun d => ?_⟩
  rcases h.lookup d with hd | ⟨hd, hnone⟩
  · rw [BpfMaps.lookup_unbindCgroup] at hd
    by_cases hdc : d = c
    · rw [if_pos hdc] at hd
      exact .inr ⟨by simp [hdc], hd⟩
    · rw [if_neg hdc] at hd
      exact .inl hd
  · exact .inr ⟨List.mem_cons_of_mem c hd, hnone⟩

theorem unbindAll_spec (cgs : List CgroupID) (w : World) :
    (unbindAll cgs w).clock = w.clock ∧ Moves (Unbinds cgs w.maps) w (unbindAll cgs w) ∧
    ∀ c ∈ cgs, (unbindAll cgs w).maps.cgToPolicy.lookup c = none := by
  induction cgs generalizing w with
  | nil => exact ⟨rfl, Moves.refl _ _, by simp⟩
  | cons c cgs ih =>
    obtain ⟨hc, hm, hl⟩ := ih { w with maps := w.maps.unbindCgroup c, past := w.history }
    have hfirst : Moves (Unbinds (c :: cgs) w.maps) w
        { w with maps := w.maps.unbindCgroup c, past := w.history } := by
      refine ⟨Nat.le_refl _, [w.maps.unbindCgroup c], rfl, fun m hm => ?_⟩
      rw [List.mem_singleton.mp hm]
      exact (Unbinds.refl cgs _).cons
    refine ⟨hc, hfirst.trans (hm.mono fun _ h => h.cons), fun d hd => ?_⟩
    rcases List.mem_cons.mp hd with rfl | hd
    · -- unbound by the first step, and never bound again
      rcases (hm.maps (Unbinds.refl cgs _)).lookup d with h | h
      · exact h.trans (by simp)
      · exact h.2
    · exact hl d hd

theorem batchDelete_ends {cgs : List CgroupID} :
    Ends (batchDelete env cgs w)
      (fun _ w' => Runs env (Unbinds cgs w.maps) w w' ∧
        ∀ c ∈ cgs, w'.maps.cgToPolicy.lookup c = none)
      (fun _ w' => Fails env True (Unbinds cgs w.maps) w w') := by
  have htick : Moves (Unbinds cgs w.maps) w { w with clock := w.clock + 1 } :=
    ⟨by simp, [], rfl, fun _ h => absurd h (by simp)⟩
  unfold batchDelete
  cases hf : env.fault w.clock with
  | some errno =>
    obtain ⟨hc, hm, _⟩ := unbindAll_spec (cgs.take (env.batchDone w.clock))
      { w with clock := w.clock + 1 }
    have hsome : ∀ m, Unbinds (cgs.take (env.batchDone w.clock)) w.maps m →
        Unbinds cgs w.maps m := fun m h =>
      ⟨h.1, h.2, h.3, fun c => (h.4 c).imp_right fun hl => ⟨List.mem_of_mem_take hl.1, hl.2⟩⟩
    refine ⟨htick.trans (hm.mono hsome), fun _ hq => ?_⟩
    exact absurd (hq w.clock (Nat.le_refl _) (by rw [hc]; simp)) (by simp [hf])
  | none =>
    obtain ⟨hc, hm, hl⟩ := unbindAll_spec cgs { w with clock := w.clock + 1 }
    refine ⟨⟨htick.trans hm, fun t h₁ h₂ => ?_⟩, hl⟩
    have : t = w.clock := by rw [hc] at h₂; simp only at h₂; omega
    rw [this, hf]

end RuntimeEnforcer
