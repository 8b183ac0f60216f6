import RuntimeEnforcer.Manager.PolicyValues

/-!
# An allow-list while it is replaced

The list of a policy is spread over eleven outer maps, and a replacement swaps or deletes them one
after another while the hook reads them; any of the calls may fail and leave it there. `Replacing`
is what holds of the maps at every such moment. It needs no order of the classes and no count of
the calls: `Between` says that each class is as it was or as it is to be, and the rest follows from
where the values are filed.

A value is in a class when its key is there. Userspace pads a value with NULs to the key size, so
two values that differ in trailing NULs alone are one entry.
-/

set_option autoImplicit false

namespace RuntimeEnforcer

open Lib

/-- The class of `id` has the key among its entries. -/
def BpfMaps.InClass (m : BpfMaps) (id : PolicyID) (i : MapIndex) (key : Key (stringMapsSizes i)) :
    Prop :=
  ∃ inner, m.polStrMaps i id = some inner ∧ key ∈ inner

/-- The class of `id` holds exactly those of the values that are filed there. -/
def HoldsClass (m : BpfMaps) (id : PolicyID) (values : List Bytes) (i : MapIndex) : Prop :=
  ∀ key, m.InClass id i key ↔
    ∃ v ∈ values, filed v.length = some i ∧ key = padTo (stringMapsSizes i) v

/-- The maps at a moment of the replacement of `old` by `new`, which began in `m₀`: what is allowed
before and after is allowed all along, and what is allowed at any time is allowed before or
after. -/
structure Replacing (id : PolicyID) (old new : List Bytes) (m₀ m : BpfMaps) : Prop where
  kept : ∀ v ∈ old, v ∈ new → ∀ i, filed v.length = some i →
    m.InClass id i (padTo (stringMapsSizes i) v)
  known : ∀ i key, m.InClass id i key →
    ∃ v, (v ∈ old ∨ v ∈ new) ∧ filed v.length = some i ∧ key = padTo (stringMapsSizes i) v
  classes : ∀ i, HoldsClass m id old i ∨ HoldsClass m id new i
  others : ∀ d, d ≠ id → ∀ i, m.polStrMaps i d = m₀.polStrMaps i d

section

variable {env : ManagerEnv} {id : PolicyID} {old new : List Bytes} {m₀ m : BpfMaps} {w : World}

theorem Replacing.of_classes (hclasses : ∀ i, HoldsClass m id old i ∨ HoldsClass m id new i)
    (hothers : ∀ d, d ≠ id → ∀ i, m.polStrMaps i d = m₀.polStrMaps i d) :
    Replacing id old new m₀ m := by
  refine ⟨fun v hold hnew i hi => ?_, fun i key hkey => ?_, hclasses, hothers⟩
  · rcases hclasses i with h | h
    · exact (h _).mpr ⟨v, hold, hi, rfl⟩
    · exact (h _).mpr ⟨v, hnew, hi, rfl⟩
  · rcases hclasses i with h | h
    · obtain ⟨v, hv, hi, hpad⟩ := (h key).mp hkey
      exact ⟨v, .inl hv, hi, hpad⟩
    · obtain ⟨v, hv, hi, hpad⟩ := (h key).mp hkey
      exact ⟨v, .inr hv, hi, hpad⟩

theorem Replacing.start (h : Holds m id old) : Replacing id old new m m :=
  .of_classes (fun i => .inl (h i)) fun _ _ _ => rfl

theorem Replacing.of_between (h : Holds m₀ id old)
    (hnew : ∀ v ∈ new, ValidValue env.currKernelVersion v)
    (hb : Between id (newClass env new) m₀ m) : Replacing id old new m₀ m := by
  refine .of_classes (fun i => ?_) hb.others
  rcases hb.classes i with hsame | htarget
  · left
    intro key
    rw [BpfMaps.InClass, hsame]
    exact h i key
  · right
    intro key
    rw [BpfMaps.InClass, htarget]
    exact newClass_holds hnew i key

/-- A list with a value that is refused changes nothing: the values are sorted before the first map
is touched. -/
theorem replaceBPFMaps_refused (h : ¬ ∀ v ∈ new, ValidValue env.currKernelVersion v) :
    after (replaceBPFMaps env id new w) = w := by
  unfold replaceBPFMaps selectorMaps
  cases hc : convertValuesToBPFStringMaps env.currKernelVersion new with
  | ok sub => exact absurd (convert_ok_iff.mp ⟨sub, hc⟩) h
  | error e => rfl

theorem replaceBPFMaps_moves :
    Moves (Between id (newClass env new) w.maps) w (after (replaceBPFMaps env id new w)) :=
  (replaceBPFMaps_ends.mono (fun _ _ h => h.1.runs.moves) fun _ _ h => h.moves).after

/-- **Replacing an allow-list is safe at every moment**, whichever call is the last to succeed. -/
theorem replaceValuesInPolicy_safe (h : Holds w.maps id old) :
    Replacing id old new w.maps w.maps ∧
      Moves (Replacing id old new w.maps) w
        (after (policyUpdateBinaries env id new .replaceValuesInPolicy w)) := by
  refine ⟨.start h, ?_⟩
  rw [policyUpdateBinaries, handleErrOnShutdown_eq]
  by_cases hnew : ∀ v ∈ new, ValidValue env.currKernelVersion v
  · exact replaceBPFMaps_moves.mono fun m hb => .of_between h hnew hb
  · rw [replaceBPFMaps_refused hnew]
    exact Moves.refl _ w

end

namespace Sample

def oldList : List Bytes := [List.replicate 6 97, List.replicate 30 97]

def newList : List Bytes := [List.replicate 6 97, List.replicate 7 98, List.replicate 31 98]

def beforeReplace : World where
  maps := { BpfMaps.empty with
    polStrMaps := fun i id => if id = 1 then newClass .calm oldList i else none }

/-- The update of the second class fails. -/
def failsHalfway : ManagerEnv :=
  { ManagerEnv.calm with fault := fun t => if t = 6 then some "input/output error" else none }

def afterReplace : World :=
  after (policyUpdateBinaries failsHalfway 1 newList .replaceValuesInPolicy beforeReplace)

/-- The first class is the new one and the second the old one when the replacement stops. -/
theorem replaceValuesInPolicy_halfway :
    (isOk (policyUpdateBinaries failsHalfway 1 newList .replaceValuesInPolicy beforeReplace) = false
      ∧ afterReplace.maps.polStrMaps 0 1 = newClass failsHalfway newList 0
      ∧ afterReplace.maps.polStrMaps 1 1 = newClass failsHalfway oldList 1) ∧
    Replacing 1 oldList newList beforeReplace.maps beforeReplace.maps ∧
      Moves (Replacing 1 oldList newList beforeReplace.maps) beforeReplace afterReplace := by
  have hvalid : ∀ v ∈ oldList, ValidValue ManagerEnv.calm.currKernelVersion v := by
    decide +kernel
  have hold : Holds beforeReplace.maps 1 oldList := holds_of_newClass hvalid fun _ => rfl
  exact ⟨by decide +kernel, replaceValuesInPolicy_safe hold⟩

end Sample

end RuntimeEnforcer
