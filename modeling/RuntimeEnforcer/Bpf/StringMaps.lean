import RuntimeEnforcer.Bpf.Maps

/-!
# The hook's side of the string maps

`string_padded_len` and `string_map_index` (`bpf/main.c`) and `get_policy_string_map`
(`bpf/string_maps.h`): from a path length to the inner map the hook consults. Lengths are `u16`
in the source; every value here is below `2 ^ 16`, so `Nat` computes the same.
-/

set_option autoImplicit false

namespace RuntimeEnforcer.Hook

open Lib

def stringPaddedLen (len : Nat) : Nat :=
  if len < stringMapSize5 then
    if len % stringMapsKeyIncSize ≠ 0 then
      (len / stringMapsKeyIncSize + 1) * stringMapsKeyIncSize
    else len
  else if len ≤ stringMapSize6 then stringMapSize6
  else if len ≤ stringMapSize7 then stringMapSize7
  else if len ≤ stringMapSize8 then stringMapSize8
  else if len ≤ stringMapSize9 then stringMapSize9
  else stringMapSize10

/-- `string_map_index`. The result is an `int`: a padded length of `0` gives `-1`. -/
def stringMapIndex (paddedLen : Nat) : Int :=
  if paddedLen < stringMapSize5 then (paddedLen / stringMapsKeyIncSize : Int) - 1
  else if paddedLen = stringMapSize6 then 6
  else if paddedLen = stringMapSize7 then 7
  else if paddedLen = stringMapSize8 then 8
  else if paddedLen = stringMapSize9 then 9
  else 10

/-- The outer map an index selects; `none` is the `default` of the `switch`. -/
def outerMap (index : Int) : Option (MapIndex) :=
  if h : 0 ≤ index ∧ index < 11 then some ⟨index.toNat, by omega⟩ else none

/-- `get_policy_string_map`, followed by the lookup of the key-size bytes that start at `pos` in
`buf`: whether the hook finds an entry. -/
def stringMapLookup (m : BpfMaps) (index : Int) (id : PolicyID) (buf : Buffer) (pos : Nat) :
    Bool :=
  match outerMap index with
  | none => false
  | some i =>
    match m.polStrMaps i id with
    | none => false
    | some inner => decide ((buf.window pos (stringMapsSizes i)) ∈ inner.map (·.toList))

theorem stringMapLookup_iff {m : BpfMaps} {index : Int} {id : PolicyID} {buf : Buffer}
    {pos : Nat} :
    stringMapLookup m index id buf pos = true ↔ ∃ i, outerMap index = some i ∧
      ∃ inner, m.polStrMaps i id = some inner ∧
        ∃ key ∈ inner, key.toList = buf.window pos (stringMapsSizes i) := by
  unfold stringMapLookup
  cases outerMap index with
  | none => simp
  | some i =>
    cases hin : m.polStrMaps i id with
    | none => simp [hin]
    | some inner => simp [hin]

/-- The string map the hook consults for a path of `len` bytes. -/
def consulted (len : Nat) : Option (MapIndex) :=
  outerMap (stringMapIndex (stringPaddedLen len))

/-! ## Which map a length selects -/

/-- Below 121 bytes, one map every 24 bytes. -/
theorem consulted_small {len : Nat} (h₁ : 1 ≤ len) (h₂ : len ≤ 120) :
    (consulted len).map Fin.val = some ((len - 1) / 24) := by
  have h : ∀ n < 121, 1 ≤ n → (consulted n).map Fin.val = some ((n - 1) / 24) := by decide
  exact h len (by omega) h₁

/-- From 121 to 143 bytes the padded length is 144, which `string_map_index` does not know: its
first test is `<` and no `case` names `STRING_MAPS_SIZE_5`, so the `default` answers. -/
theorem consulted_gap {len : Nat} (h₁ : 121 ≤ len) (h₂ : len ≤ 143) : consulted len = some 10 := by
  have h : ∀ n < 144, 121 ≤ n → consulted n = some 10 := by decide
  exact h len (by omega) h₁

/-- From 144 bytes on, the first of the five large sizes that holds the path. -/
theorem consulted_large {len : Nat} (h : 144 ≤ len) :
    consulted len = some (if len ≤ 256 then 6 else if len ≤ 512 then 7
      else if len ≤ 1024 then 8 else if len ≤ 2048 then 9 else 10) := by
  have h5 : ¬ len < stringMapSize5 := by simp [stringMapSize5, stringMapsKeyIncSize]; omega
  have hpad : stringPaddedLen len = if len ≤ 256 then 256 else if len ≤ 512 then 512
      else if len ≤ 1024 then 1024 else if len ≤ 2048 then 2048 else 4096 := by
    unfold stringPaddedLen
    rw [if_neg h5]
    rfl
  unfold consulted
  rw [hpad]
  split_ifs <;> rfl

theorem consulted_isSome {len : Nat} (h : 1 ≤ len) : (consulted len).isSome := by
  by_cases h₁ : len ≤ 120
  · have := consulted_small h h₁
    cases hc : consulted len with
    | none => rw [hc] at this; exact absurd this (by simp)
    | some i => rfl
  · by_cases h₂ : len ≤ 143
    · rw [consulted_gap (by omega) h₂]; rfl
    · rw [consulted_large (by omega)]; rfl

def keySize (len : Nat) : Nat :=
  if len ≤ 120 then ((len - 1) / 24 + 1) * 24
  else if len ≤ 143 then 4096
  else if len ≤ 256 then 256
  else if len ≤ 512 then 512
  else if len ≤ 1024 then 1024
  else if len ≤ 2048 then 2048
  else 4096

theorem keySize_of_consulted {len : Nat} {i : MapIndex} (h₁ : 1 ≤ len)
    (h : consulted len = some i) : stringMapsSizes i = keySize len := by
  by_cases h120 : len ≤ 120
  · have hs : ∀ n < 121, 1 ≤ n → ∀ j, consulted n = some j → stringMapsSizes j = keySize n := by
      decide
    exact hs len (by omega) h₁ i h
  · unfold keySize
    rw [if_neg h120]
    by_cases h143 : len ≤ 143
    · rw [consulted_gap (by omega) h143, Option.some.injEq] at h
      rw [if_pos h143, ← h]
      rfl
    · rw [consulted_large (by omega), Option.some.injEq] at h
      rw [if_neg h143, ← h]
      split_ifs <;> rfl

/-- A path of at most 4096 bytes fits in the keys of the map the hook consults. -/
theorem le_of_consulted {len : Nat} {i : MapIndex} (h₁ : 1 ≤ len) (h₂ : len ≤ 4096)
    (h : consulted len = some i) : len ≤ stringMapsSizes i := by
  rw [keySize_of_consulted h₁ h]
  unfold keySize
  split_ifs <;> omega

end RuntimeEnforcer.Hook
