import RuntimeEnforcer.Manager.World
import Mathlib.Data.List.FinRange

/-!
# The allow-list as userspace stores it

`internal/bpf/policy_values.go`. A list of allowed paths is sorted into eleven classes by padded
length (`convertValuesToBPFStringMaps`), and each class becomes one inner map of the outer map of
its size. The three operations on a policy id — add, replace, remove — are each a loop over the
eleven classes, one outer update a class, and any of the calls may fail part-way.

What an operation does to the maps is said once for the three (`eachClass_ends`): it writes only
the entries of its own policy id, and at every moment each class holds either what it held before
the operation or what the operation puts there.
-/

set_option autoImplicit false

namespace RuntimeEnforcer

open Lib

inductive PolicyValuesOperation
  | addValuesToPolicy
  | removeValuesFromPolicy
  | replaceValuesInPolicy
  deriving DecidableEq, Repr

/-! ## Sorting values into classes -/

def stringPaddedLen (s : Nat) : Nat :=
  if s ≤ 6 * stringMapsKeyIncSize then
    if s % stringMapsKeyIncSize ≠ 0 then
      (s / stringMapsKeyIncSize + 1) * stringMapsKeyIncSize
    else s
  else if s ≤ stringMapSize6 then stringMapSize6
  else if s ≤ stringMapSize7 then stringMapSize7
  else if s ≤ stringMapSize8 then stringMapSize8
  else if s ≤ stringMapSize9 then stringMapSize9
  else stringMapSize10

/-- The longest value a kernel version takes: before 5.11, hash keys stop at 512 bytes. -/
def maxValueLen (currKernelVer : Nat) : Nat :=
  if currKernelVer < kernelVersion 5 11 0 then stringMapSize7 else maxStringMapsSize

/-- `argStringSelectorValue`. -/
def argStringSelectorValue (v : Bytes) (removeNul : Bool) (currKernelVer : Nat) :
    Except ValueErr (Key maxStringMapsSize × Nat) :=
  let b := if removeNul then stripNul v else v
  -- the loop that removes NULs indexes the last byte before it looks at the length
  if removeNul ∧ b = [] then .error .indexOutOfRange
  else if b.length = 0 then .error .empty
  else if b.length > maxValueLen currKernelVer then .error .tooLong
  else .ok (padTo maxStringMapsSize b, stringPaddedLen b.length)

/-- `SelectorStringMaps`: the values of each class, as a set. -/
abbrev SelectorStringMaps := MapIndex → List (Key maxStringMapsSize)

def createStringMaps : SelectorStringMaps := fun _ => []

/-- The search of `putValueInMap` for the map of a padded size. -/
def sizeIndex (size : Nat) : Option MapIndex :=
  (List.finRange 11).find? fun i => size == stringMapsSizes i

def putValueInMap (currKernelVer : Nat) (m : SelectorStringMaps) (v : Bytes) :
    Except BpfErr SelectorStringMaps :=
  match argStringSelectorValue v false currKernelVer with
  | .error e => .error (.valueInvalid v e)
  | .ok (value, size) =>
    match sizeIndex size with
    | some i => .ok (Function.update m i ((m i).insert value))
    | none => .error (.unsupportedSize v size)

def convertValuesToBPFStringMaps (currKernelVer : Nat) (values : List Bytes) :
    Except BpfErr SelectorStringMaps :=
  values.foldlM (putValueInMap currKernelVer) createStringMaps

/-! ## The three operations -/

def isKernelPre5_9 (env : ManagerEnv) : Bool := env.currKernelVersion < kernelVersion 5 9 0

def fixedMaxEntriesPre5_9 : Nat := 500

/-- The `MaxEntries` of the inner map of a class: versions before 5.9 do not allow inner maps of
different sizes. -/
def innerMaxEntries (env : ManagerEnv) (subMap : List (Key maxStringMapsSize)) : Nat :=
  if isKernelPre5_9 env then fixedMaxEntriesPre5_9 else subMap.length

def innerName (id : PolicyID) (index : MapIndex) : String := s!"p_{id}_str_map_{index.val}"

/-- The inner map of a class: its values cut to the key size. -/
def innerOf (i : MapIndex) (subMap : List (Key maxStringMapsSize)) :
    InnerMap (stringMapsSizes i) :=
  subMap.map fun rawVal => padTo (stringMapsSizes i) rawVal.toList

/-- Create the inner map of a class and insert its values. -/
def fillInner (env : ManagerEnv) (id : PolicyID) (index : MapIndex)
    (subMap : List (Key maxStringMapsSize)) : BpfM Unit := do
  unseen env .createInner
  subMap.zipIdx.forM fun (_, n) =>
    if innerMaxEntries env subMap ≤ n then
      throw (.insertValue (innerName id index) env.mapFull)
    else unseen env (.insertValue (innerName id index))

/-- `generateInnerBPFMaps`. The update is `UpdateNoExist`, and an existing entry is tried again
with an update that overwrites it. -/
def generateInnerBPFMaps (env : ManagerEnv) (id : PolicyID) (index : MapIndex)
    (subMap : List (Key maxStringMapsSize)) : BpfM Unit := do
  fillInner env id index subMap
  let w ← get
  if (w.maps.polStrMaps index id).isSome then unseen env (.insertInner id)
  syscall env (.insertInner id) fun m => m.setStrMap index id (some (innerOf index subMap))

def replaceInnerBPFMap (env : ManagerEnv) (id : PolicyID) (index : MapIndex)
    (subMap : List (Key maxStringMapsSize)) : BpfM Unit := do
  fillInner env id index subMap
  syscall env (.updateInner id) fun m => m.setStrMap index id (some (innerOf index subMap))

/-- `Delete` on the outer map of a class; a missing key is no error. -/
def deleteInner (env : ManagerEnv) (id : PolicyID) (index : MapIndex) : BpfM Unit :=
  syscall env (.removeInner id (env.mapString s!"pol_str_maps_{index.val}")) fun m =>
    m.setStrMap index id none

def eachClass (f : MapIndex → BpfM Unit) : BpfM Unit := (List.finRange 11).forM f

def selectorMaps (env : ManagerEnv) (values : List Bytes) : BpfM SelectorStringMaps :=
  match convertValuesToBPFStringMaps env.currKernelVersion values with
  | .error e => throw e
  | .ok subMaps => pure subMaps

def generateBPFMaps (env : ManagerEnv) (id : PolicyID) (values : List Bytes) : BpfM Unit := do
  let subMaps ← selectorMaps env values
  eachClass fun i =>
    if (subMaps i).length = 0 then pure () else generateInnerBPFMaps env id i (subMaps i)

def removeBPFMaps (env : ManagerEnv) (id : PolicyID) : BpfM Unit :=
  eachClass fun i => deleteInner env id i

def replaceBPFMaps (env : ManagerEnv) (id : PolicyID) (values : List Bytes) : BpfM Unit := do
  let subMaps ← selectorMaps env values
  eachClass fun i =>
    if (subMaps i).length = 0 then deleteInner env id i
    else replaceInnerBPFMap env id i (subMaps i)

def policyUpdateBinaries (env : ManagerEnv) (id : PolicyID) (values : List Bytes) :
    PolicyValuesOperation → BpfM Unit
  | .addValuesToPolicy => handleErrOnShutdown env (generateBPFMaps env id values)
  | .removeValuesFromPolicy => handleErrOnShutdown env (removeBPFMaps env id)
  | .replaceValuesInPolicy => handleErrOnShutdown env (replaceBPFMaps env id values)

/-! ## Where a value is filed -/

variable {len ver : Nat} {i : MapIndex} {values : List Bytes} {env : ManagerEnv}

def filed (len : Nat) : Option MapIndex := sizeIndex (stringPaddedLen len)

/-- Up to 144 bytes, one class every 24 bytes. -/
theorem filed_small (h₁ : 1 ≤ len) (h₂ : len ≤ 144) :
    (filed len).map Fin.val = some ((len - 1) / 24) := by
  have h : ∀ n < 145, 1 ≤ n → (filed n).map Fin.val = some ((n - 1) / 24) := by
    decide +kernel
  exact h len (by omega) h₁

/-- From 145 bytes on, the first of the five large sizes that holds the value. -/
theorem filed_large (h : 145 ≤ len) :
    filed len = some (if len ≤ 256 then 6 else if len ≤ 512 then 7
      else if len ≤ 1024 then 8 else if len ≤ 2048 then 9 else 10) := by
  have h5 : ¬ len ≤ 6 * stringMapsKeyIncSize := by simp [stringMapsKeyIncSize]; omega
  have hpad : stringPaddedLen len = if len ≤ 256 then 256 else if len ≤ 512 then 512
      else if len ≤ 1024 then 1024 else if len ≤ 2048 then 2048 else 4096 := by
    unfold stringPaddedLen
    rw [if_neg h5]
    rfl
  unfold filed
  rw [hpad]
  split_ifs <;> rfl

/-- A value of at most 4096 bytes fits in the keys of its class. -/
theorem le_of_filed (h₂ : len ≤ 4096) (h : filed len = some i) : len ≤ stringMapsSizes i := by
  by_cases h144 : len ≤ 144
  · have hs : ∀ n < 145, ∀ j, filed n = some j → n ≤ stringMapsSizes j := by
      decide +kernel
    exact hs len (by omega) i h
  · rw [filed_large (by omega), Option.some.injEq] at h
    subst h
    split_ifs <;> assumption

theorem filed_isSome (h : 1 ≤ len) : (filed len).isSome := by
  by_cases h144 : len ≤ 144
  · have := filed_small h h144
    cases hf : filed len with
    | none => rw [hf] at this; exact absurd this (by simp)
    | some i => rfl
  · rw [filed_large (by omega)]; rfl

def ValidValue (currKernelVer : Nat) (v : Bytes) : Prop :=
  1 ≤ v.length ∧ v.length ≤ maxValueLen currKernelVer

instance (ver : Nat) (v : Bytes) : Decidable (ValidValue ver v) := by
  unfold ValidValue; infer_instance

theorem maxValueLen_le (ver : Nat) : maxValueLen ver ≤ 4096 := by
  unfold maxValueLen
  split <;> decide

theorem putValueInMap_of_valid {m : SelectorStringMaps} {v : Bytes} (h : ValidValue ver v) :
    ∃ i, filed v.length = some i ∧
      putValueInMap ver m v
        = .ok (Function.update m i ((m i).insert (padTo maxStringMapsSize v))) := by
  obtain ⟨i, hi⟩ := Option.isSome_iff_exists.mp (filed_isSome h.1)
  have h₁ : ¬ v.length = 0 := by have := h.1; omega
  have h₂ : ¬ v.length > maxValueLen ver := Nat.not_lt.mpr h.2
  refine ⟨i, hi, ?_⟩
  unfold putValueInMap argStringSelectorValue
  simp only [Bool.false_eq_true, false_and, if_false, if_neg h₁, if_neg h₂]
  rw [show sizeIndex (stringPaddedLen v.length) = some i from hi]

theorem putValueInMap_of_not_valid {m : SelectorStringMaps} {v : Bytes} (h : ¬ ValidValue ver v) :
    ∃ e, putValueInMap ver m v = .error e := by
  unfold putValueInMap argStringSelectorValue
  simp only [Bool.false_eq_true, false_and, if_false]
  by_cases h₁ : v.length = 0
  · exact ⟨_, by rw [if_pos h₁]⟩
  · have h₂ : v.length > maxValueLen ver := by
      by_contra h₂
      exact h ⟨by omega, by omega⟩
    exact ⟨_, by rw [if_neg h₁, if_pos h₂]⟩

/-- Sorting succeeds on valid values, and files each where its length says. -/
theorem foldlM_putValueInMap (ver : Nat) (values : List Bytes) (m : SelectorStringMaps) :
    match values.foldlM (putValueInMap ver) m with
    | .ok sub => (∀ v ∈ values, ValidValue ver v) ∧ ∀ i key, key ∈ sub i ↔
        key ∈ m i ∨ ∃ v ∈ values, filed v.length = some i ∧ key = padTo maxStringMapsSize v
    | .error _ => ∃ v ∈ values, ¬ ValidValue ver v := by
  induction values generalizing m with
  | nil =>
    simp only [List.foldlM_nil]
    exact ⟨by simp, fun i key => by simp⟩
  | cons v values ih =>
    rw [List.foldlM_cons]
    by_cases hv : ValidValue ver v
    · obtain ⟨i, hi, hput⟩ := putValueInMap_of_valid (m := m) hv
      rw [hput]
      simp only [bind, Except.bind]
      specialize ih (Function.update m i ((m i).insert (padTo maxStringMapsSize v)))
      split at ih
      case h_1 sub hsub =>
        refine ⟨by simpa using ⟨hv, ih.1⟩, fun j key => ?_⟩
        rw [ih.2 j key]
        by_cases hj : j = i
        · subst hj
          simp [hi, List.mem_insert_iff, or_assoc, or_left_comm]
        · have : ¬ filed v.length = some j := fun h => hj (Option.some.inj (h.symm.trans hi))
          simp [Function.update_of_ne hj, this]
      case h_2 e he =>
        obtain ⟨u, hu, hbad⟩ := ih
        exact ⟨u, List.mem_cons_of_mem v hu, hbad⟩
    · obtain ⟨e, he⟩ := putValueInMap_of_not_valid (m := m) hv
      rw [he]
      exact ⟨v, by simp, hv⟩

theorem convert_ok_iff :
    (∃ sub, convertValuesToBPFStringMaps ver values = .ok sub) ↔
      ∀ v ∈ values, ValidValue ver v := by
  have h := foldlM_putValueInMap ver values createStringMaps
  unfold convertValuesToBPFStringMaps
  split at h
  case h_1 sub hsub => exact ⟨fun _ => h.1, fun _ => ⟨sub, hsub⟩⟩
  case h_2 e he =>
    obtain ⟨v, hv, hbad⟩ := h
    exact ⟨fun ⟨sub, hsub⟩ => absurd (he.symm.trans hsub) (by simp), fun hall =>
      absurd (hall v hv) hbad⟩

/-- What a list of values makes of class `i`; an empty class has no inner map. -/
def newClass (env : ManagerEnv) (values : List Bytes) (i : MapIndex) :
    Option (InnerMap (stringMapsSizes i)) :=
  match convertValuesToBPFStringMaps env.currKernelVersion values with
  | .error _ => none
  | .ok sub => if (sub i).length = 0 then none else some (innerOf i (sub i))

/-- The string maps of `id` hold exactly `values`: each in the class of its length. -/
def Holds (m : BpfMaps) (id : PolicyID) (values : List Bytes) : Prop :=
  ∀ i key, (∃ inner, m.polStrMaps i id = some inner ∧ key ∈ inner) ↔
    ∃ v ∈ values, filed v.length = some i ∧ key = padTo (stringMapsSizes i) v

/-- Values this kernel stores: each of a valid length, and no class larger than its map. -/
def Acceptable (env : ManagerEnv) (values : List Bytes) : Prop :=
  ∃ sub, convertValuesToBPFStringMaps env.currKernelVersion values = .ok sub ∧
    ∀ i, (sub i).length ≤ innerMaxEntries env (sub i)

theorem acceptable_of_valid (hver : isKernelPre5_9 env = false)
    (hv : ∀ v ∈ values, ValidValue env.currKernelVersion v) : Acceptable env values := by
  obtain ⟨sub, hsub⟩ := convert_ok_iff.mpr hv
  exact ⟨sub, hsub, fun i => by simp [innerMaxEntries, hver]⟩

/-- What the lists of a class hold, padded to the class's size. -/
theorem mem_innerOf {sub : SelectorStringMaps}
    (h : convertValuesToBPFStringMaps ver values = .ok sub) {key : Key (stringMapsSizes i)} :
    key ∈ innerOf i (sub i) ↔
      ∃ v ∈ values, filed v.length = some i ∧ key = padTo (stringMapsSizes i) v := by
  have hsub := foldlM_putValueInMap ver values createStringMaps
  rw [show values.foldlM (putValueInMap ver) createStringMaps = .ok sub from h] at hsub
  unfold innerOf
  rw [List.mem_map]
  constructor
  · rintro ⟨raw, hraw, rfl⟩
    rcases (hsub.2 i raw).mp hraw with hnil | ⟨v, hv, hi, rfl⟩
    · exact absurd hnil (by simp [createStringMaps])
    · exact ⟨v, hv, hi, padTo_padTo (stringMapsSizes_le i) v⟩
  · rintro ⟨v, hv, hi, rfl⟩
    exact ⟨_, (hsub.2 i _).mpr (Or.inr ⟨v, hv, hi, rfl⟩), padTo_padTo (stringMapsSizes_le i) v⟩

/-- Every key of a class is a value of the list. -/
theorem mem_newClass {inner : InnerMap (stringMapsSizes i)} (h : newClass env values i = some inner)
    {key : Key (stringMapsSizes i)} (hkey : key ∈ inner) :
    ∃ v ∈ values, filed v.length = some i ∧ key = padTo (stringMapsSizes i) v := by
  unfold newClass at h
  cases hc : convertValuesToBPFStringMaps env.currKernelVersion values with
  | error e => simp [hc] at h
  | ok sub =>
    simp only [hc] at h
    split at h
    · exact absurd h (by simp)
    · exact (mem_innerOf hc).mp (Option.some.inj h ▸ hkey)

/-- The keys of a class are its values, padded. -/
theorem newClass_holds (hv : ∀ v ∈ values, ValidValue env.currKernelVersion v) (i : MapIndex)
    (key : Key (stringMapsSizes i)) :
    (∃ inner, newClass env values i = some inner ∧ key ∈ inner) ↔
      ∃ v ∈ values, filed v.length = some i ∧ key = padTo (stringMapsSizes i) v := by
  obtain ⟨sub, h⟩ := convert_ok_iff.mpr hv
  rw [← mem_innerOf h, newClass, h]
  by_cases hnil : (sub i).length = 0
  · have : innerOf i (sub i) = [] := by simp [innerOf, List.length_eq_zero_iff.mp hnil]
    simp [hnil, this]
  · simp [hnil]

theorem holds_of_newClass (hv : ∀ v ∈ values, ValidValue env.currKernelVersion v) {m : BpfMaps}
    {id : PolicyID} (hm : ∀ i, m.polStrMaps i id = newClass env values i) : Holds m id values := by
  intro i key
  rw [hm i]
  exact newClass_holds hv i key

/-! ## What an operation does to the maps -/

/-- A state of an operation on `id`: each class is as it was, or as the operation wants it, and
nothing else has changed. -/
structure Between (id : PolicyID) (target : (i : MapIndex) → Option (InnerMap (stringMapsSizes i)))
    (m₀ m : BpfMaps) : Prop where
  cgtracker : m.cgtracker = m₀.cgtracker
  cgToPolicy : m.cgToPolicy = m₀.cgToPolicy
  policySettings : m.policySettings = m₀.policySettings
  others : ∀ d, d ≠ id → ∀ i, m.polStrMaps i d = m₀.polStrMaps i d
  classes : ∀ i, m.polStrMaps i id = m₀.polStrMaps i id ∨ m.polStrMaps i id = target i

structure Writes (env : ManagerEnv) (id : PolicyID)
    (target : (i : MapIndex) → Option (InnerMap (stringMapsSizes i))) (w w' : World) : Prop where
  runs : Runs env (Between id target w.maps) w w'
  stored : ∀ i, w'.maps.polStrMaps i id = target i

section

variable {env : ManagerEnv} {id : PolicyID}
  {target : (i : MapIndex) → Option (InnerMap (stringMapsSizes i))} {m₀ m : BpfMaps} {w w' : World}

theorem Between.refl : Between id target m₀ m₀ :=
  ⟨rfl, rfl, rfl, fun _ _ _ => rfl, fun _ => .inl rfl⟩

theorem Between.set (h : Between id target m₀ m) (i : MapIndex) :
    Between id target m₀ (m.setStrMap i id (target i)) := by
  refine ⟨h.cgtracker, h.cgToPolicy, h.policySettings, fun d hd j => ?_, fun j => ?_⟩
  · rw [BpfMaps.setStrMap_of_ne_id _ _ _ hd, h.others d hd j]
  · by_cases hj : j = i
    · subst hj; exact .inr (BpfMaps.setStrMap_self _ _ _)
    · rw [BpfMaps.setStrMap_of_ne_index _ _ _ hj]; exact h.classes j

theorem Writes.between (h : Writes env id target w w') : Between id target w.maps w'.maps :=
  h.runs.moves.maps Between.refl

end

/-- The loop over the classes: if each visit brings its class to `target`, the loop brings all
eleven there, one after another. A visit may rely on its class being untouched so far. -/
theorem eachClass_ends {id : PolicyID} {C : Prop} {f : MapIndex → BpfM Unit} {w : World}
    (target : (i : MapIndex) → Option (InnerMap (stringMapsSizes i)))
    (hf : ∀ i w₁, w₁.maps.polStrMaps i id = w.maps.polStrMaps i id →
      Ends (f i w₁)
        (fun _ w' => Runs env (· = w₁.maps.setStrMap i id (target i)) w₁ w' ∧
          w'.maps = w₁.maps.setStrMap i id (target i))
        (fun _ w' => Fails env C (fun _ => False) w₁ w')) :
    Ends (eachClass f w) (fun _ w' => Writes env id target w w')
      (fun _ w' => Fails env C (Between id target w.maps) w w') := by
  let I : List MapIndex → World → Prop := fun rest w₁ =>
    rest.Nodup ∧ Runs env (Between id target w.maps) w w₁ ∧
    ∀ i, w₁.maps.polStrMaps i id = if i ∈ rest then w.maps.polStrMaps i id else target i
  have hloop := Ends.forM (f := f) (E := fun _ w' => Fails env C (Between id target w.maps) w w') I
    (fun i rest w₁ hI => ?step) (List.finRange 11) w
    ⟨List.nodup_finRange 11, Runs.refl, fun i => by rw [if_pos (List.mem_finRange i)]⟩
  case step =>
    obtain ⟨hnd, hruns, hcl⟩ := hI
    have hbet : Between id target w.maps w₁.maps := hruns.moves.maps Between.refl
    have hi := hcl i
    rw [if_pos (List.mem_cons_self)] at hi
    refine (hf i w₁ hi).mono ?_ ?_
    · rintro _ w₂ ⟨hr, hw₂⟩
      refine ⟨(List.nodup_cons.mp hnd).2, hruns.trans (hr.mono ?_), fun j => ?_⟩
      · rintro m rfl
        exact hbet.set i
      · rw [hw₂]
        by_cases hj : j = i
        · subst hj
          rw [BpfMaps.setStrMap_self, if_neg (List.nodup_cons.mp hnd).1]
        · rw [BpfMaps.setStrMap_of_ne_index _ _ _ hj, hcl j]
          simp [hj]
    · intro _ w₂ hfail
      exact hruns.trans_fails (hfail.mono (fun hC => hC) fun _ h => h.elim)
  refine hloop.mono (fun _ w' h => ⟨h.2.1, fun i => ?_⟩) (fun _ _ h => h)
  rw [h.2.2 i, if_neg (by simp)]

section

variable {env : ManagerEnv} {id : PolicyID} {i : MapIndex} {values : List Bytes} {w : World}
  {subMap : List (Key maxStringMapsSize)}

theorem fillInner_ends :
    Ends (fillInner env id i subMap w) (fun _ w' => Runs env (fun _ => False) w w')
      (fun _ w' =>
        Fails env (subMap.length ≤ innerMaxEntries env subMap) (fun _ => False) w w') := by
  let I : List (Key maxStringMapsSize × Nat) → World → Prop := fun rest w₁ =>
    Runs env (fun _ => False) w w₁ ∧ ∀ x ∈ rest, x.2 < subMap.length
  refine Ends.bind (unseen_ends.mono (fun _ w₁ h₁ => ?_)
    (fun _ _ h => h.1.mono (fun _ => trivial) fun _ h => h))
  refine (Ends.forM I (fun x rest w₂ hI => ?_) _ w₁ ⟨h₁, fun x hx => ?_⟩).mono
    (fun _ _ h => h.1) (fun _ _ h => h)
  · by_cases hfull : innerMaxEntries env subMap ≤ x.2
    · -- the map is full before all the values are in: the input does not fit
      simp only [hfull, if_true]
      have hx := hI.2 x (by simp)
      exact hI.1.trans_fails ⟨Moves.refl _ _, fun hC => absurd hC (by omega)⟩
    · simp only [hfull, if_false]
      exact unseen_ends.mono
        (fun _ _ h => ⟨hI.1.trans h, fun y hy => hI.2 y (List.mem_cons_of_mem x hy)⟩)
        (fun _ _ h => hI.1.trans_fails (h.1.mono (fun _ => trivial) fun _ h => h))
  · have := List.snd_lt_of_mem_zipIdx hx
    omega

/-- The shape of a visit: fill the inner map, then put it in place. -/
theorem fillInner_then_ends {x : BpfM Unit}
    (hx : ∀ w₁, w₁.maps = w.maps → Ends (x w₁)
      (fun _ w' => Runs env (· = w₁.maps.setStrMap i id (some (innerOf i subMap))) w₁ w' ∧
        w'.maps = w₁.maps.setStrMap i id (some (innerOf i subMap)))
      (fun _ w' => Fails env True (fun _ => False) w₁ w')) :
    Ends ((do fillInner env id i subMap; x) w)
      (fun _ w' => Runs env (· = w.maps.setStrMap i id (some (innerOf i subMap))) w w' ∧
        w'.maps = w.maps.setStrMap i id (some (innerOf i subMap)))
      (fun _ w' =>
        Fails env (subMap.length ≤ innerMaxEntries env subMap) (fun _ => False) w w') := by
  refine Ends.bind (fillInner_ends.mono (fun _ w₁ h₁ => ?_) (fun _ _ h => h))
  have hw₁ := h₁.moves.unchanged
  refine (hx w₁ hw₁).mono ?_ ?_
  · rintro _ w₂ ⟨h₂, hw₂⟩
    rw [hw₁] at h₂ hw₂
    exact ⟨(h₁.mono fun _ h => h.elim).trans h₂, hw₂⟩
  · intro _ w₂ h₂
    exact h₁.trans_fails (h₂.mono (fun _ => trivial) fun _ h => h)

theorem replaceInnerBPFMap_ends :
    Ends (replaceInnerBPFMap env id i subMap w)
      (fun _ w' => Runs env (· = w.maps.setStrMap i id (some (innerOf i subMap))) w w' ∧
        w'.maps = w.maps.setStrMap i id (some (innerOf i subMap)))
      (fun _ w' => Fails env (subMap.length ≤ innerMaxEntries env subMap) (fun _ => False) w w') :=
  fillInner_then_ends fun _ _ => syscall_ends.mono (fun _ _ h => h) (fun _ _ h => h.1)

theorem generateInnerBPFMaps_ends :
    Ends (generateInnerBPFMaps env id i subMap w)
      (fun _ w' => Runs env (· = w.maps.setStrMap i id (some (innerOf i subMap))) w w' ∧
        w'.maps = w.maps.setStrMap i id (some (innerOf i subMap)))
      (fun _ w' =>
        Fails env (subMap.length ≤ innerMaxEntries env subMap) (fun _ => False) w w') := by
  refine fillInner_then_ends fun w₁ _ => ?_
  refine Ends.bind (ends_ok.mpr ?_)
  by_cases hsome : (w₁.maps.polStrMaps i id).isSome
  · rw [if_pos hsome]
    refine Ends.bind (unseen_ends.mono (fun _ w₂ h₂ => ?_) (fun _ _ h => h.1))
    have hw₂ := h₂.moves.unchanged
    refine syscall_ends.mono ?_ (fun _ _ h => h₂.trans_fails h.1)
    rintro _ w₃ ⟨h₃, hw₃⟩
    rw [hw₂] at h₃ hw₃
    exact ⟨(h₂.mono fun _ h => h.elim).trans h₃, hw₃⟩
  · rw [if_neg hsome]
    exact syscall_ends.mono (fun _ _ h => h) (fun _ _ h => h.1)

/-- Sorting, then a loop over the classes that brings each to `target`. -/
theorem selectorMaps_then_ends {C : SelectorStringMaps → Prop}
    {f : SelectorStringMaps → BpfM Unit}
    {target : (i : MapIndex) → Option (InnerMap (stringMapsSizes i))}
    (hf : ∀ sub, convertValuesToBPFStringMaps env.currKernelVersion values = .ok sub →
      Ends (f sub w) (fun _ w' => Writes env id target w w')
        (fun _ w' => Fails env (C sub) (Between id target w.maps) w w')) :
    Ends ((selectorMaps env values >>= f) w)
      (fun _ w' => Writes env id target w w' ∧
        ∀ v ∈ values, ValidValue env.currKernelVersion v)
      (fun _ w' => Fails env (∃ sub, convertValuesToBPFStringMaps env.currKernelVersion values
        = .ok sub ∧ C sub) (Between id target w.maps) w w') := by
  refine Ends.bind ?_
  unfold selectorMaps
  cases hc : convertValuesToBPFStringMaps env.currKernelVersion values with
  | error e =>
    refine ⟨Moves.refl _ _, fun hok => ?_⟩
    obtain ⟨sub, hsub, _⟩ := hok
    exact absurd hsub (by simp)
  | ok sub =>
    refine (hf sub hc).mono (fun _ _ h => ⟨h, convert_ok_iff.mp ⟨sub, hc⟩⟩)
      (fun _ _ h => h.mono ?_ fun _ h => h)
    rintro ⟨sub', hsub', hC⟩
    cases hsub'
    exact hC

theorem newClass_of_ok {sub : SelectorStringMaps}
    (h : convertValuesToBPFStringMaps env.currKernelVersion values = .ok sub) (i : MapIndex) :
    newClass env values i = if (sub i).length = 0 then none else some (innerOf i (sub i)) := by
  rw [newClass, h]

theorem deleteInner_ends :
    Ends (deleteInner env id i w)
      (fun _ w' => Runs env (· = w.maps.setStrMap i id none) w w' ∧
        w'.maps = w.maps.setStrMap i id none)
      (fun _ w' => Fails env True (fun _ => False) w w') :=
  syscall_ends.mono (fun _ _ h => h) (fun _ _ h => h.1)

theorem replaceBPFMaps_ends :
    Ends (replaceBPFMaps env id values w)
      (fun _ w' => Writes env id (newClass env values) w w' ∧
        ∀ v ∈ values, ValidValue env.currKernelVersion v)
      (fun _ w' => Fails env (Acceptable env values) (Between id (newClass env values) w.maps)
        w w') := by
  refine selectorMaps_then_ends
    (C := fun sub => ∀ i, (sub i).length ≤ innerMaxEntries env (sub i))
    fun sub hsub => eachClass_ends _ fun i w₁ _ => ?_
  rw [newClass_of_ok hsub]
  by_cases hnil : (sub i).length = 0
  · simp only [hnil, if_true]
    exact deleteInner_ends.mono (fun _ _ h => h)
      (fun _ _ h => h.mono (fun _ => trivial) fun _ h => h)
  · simp only [hnil, if_false]
    exact replaceInnerBPFMap_ends.mono (fun _ _ h => h)
      (fun _ _ h => h.mono (fun hC => hC i) fun _ h => h)

/-- **Add**, to an id that holds nothing. -/
theorem generateBPFMaps_ends (hfresh : ∀ i, w.maps.polStrMaps i id = none) :
    Ends (generateBPFMaps env id values w)
      (fun _ w' => Writes env id (newClass env values) w w' ∧
        ∀ v ∈ values, ValidValue env.currKernelVersion v)
      (fun _ w' => Fails env (Acceptable env values) (Between id (newClass env values) w.maps)
        w w') := by
  refine selectorMaps_then_ends
    (C := fun sub => ∀ i, (sub i).length ≤ innerMaxEntries env (sub i))
    fun sub hsub => eachClass_ends _ fun i w₁ hw₁ => ?_
  rw [newClass_of_ok hsub]
  by_cases hnil : (sub i).length = 0
  · simp only [hnil, if_true]
    -- the class is skipped, and holds nothing
    have hsame : w₁.maps.setStrMap i id none = w₁.maps := by
      rw [← hw₁.trans (hfresh i), BpfMaps.setStrMap_same]
    rw [hsame]
    exact ⟨Runs.refl, rfl⟩
  · simp only [hnil, if_false]
    exact generateInnerBPFMaps_ends.mono (fun _ _ h => h)
      (fun _ _ h => h.mono (fun hC => hC i) fun _ h => h)

theorem removeBPFMaps_ends :
    Ends (removeBPFMaps env id w) (fun _ w' => Writes env id (fun _ => none) w w')
      (fun _ w' => Fails env True (Between id (fun _ => none) w.maps) w w') :=
  eachClass_ends _ fun _ _ _ => deleteInner_ends

end

end RuntimeEnforcer
