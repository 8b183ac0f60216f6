import RuntimeEnforcer.Lib.GoMap

/-!
# Merge patches

A JSON merge patch is the difference between two versions of an object: a field or a key that both
versions agree on is not named, one that only the older version has is named with `null`, and
everything else is named with the newer value. Applied to a third version, it leaves alone what it
does not name. `patchValue base new cur` is what becomes of one value `cur` under the patch from
`base` to `new`, without the patch as an object of its own; a list is one value. An absent key or
field is its zero value, or `none`.

A map that is empty is left out of its object, so the patch to an empty map names the map itself
and not its keys.
-/

set_option autoImplicit false

namespace RuntimeEnforcer.Lib

section Value

variable {α : Type} [DecidableEq α]

/-- A value that a patch replaces as a whole. -/
def patchValue (base new cur : α) : α := if new = base then cur else new

@[simp] theorem patchValue_self (base new : α) : patchValue base new base = new := by
  unfold patchValue
  split
  · next h => exact h.symm
  · rfl

@[simp] theorem patchValue_same (base cur : α) : patchValue base base cur = cur := if_pos rfl

/-- On any other version it leaves what is there, or gives the new value. -/
theorem patchValue_cases (base new cur : α) :
    patchValue base new cur = cur ∨ patchValue base new cur = new := by
  unfold patchValue
  split
  · exact .inl rfl
  · exact .inr rfl

end Value

variable {κ α : Type} [DecidableEq κ]

/-- The map of the keys `ks` at which `f` has a value. -/
def GoMap.ofKeys (ks : List κ) (f : κ → Option α) : GoMap κ α :=
  ks.foldr (fun k m =>
    match f k with
    | some v => m.insert k v
    | none => m) ∅

theorem GoMap.lookup_ofKeys {ks : List κ} {f : κ → Option α} {k : κ} :
    (GoMap.ofKeys ks f).lookup k = if k ∈ ks then f k else none := by
  induction ks with
  | nil => simp [GoMap.ofKeys]
  | cons k' ks ih =>
    have hcons : GoMap.ofKeys (k' :: ks) f =
        match f k' with
        | some v => (GoMap.ofKeys ks f).insert k' v
        | none => GoMap.ofKeys ks f := rfl
    rw [hcons]
    by_cases hk : k = k'
    · subst hk
      cases hf : f k with
      | some v => simp
      | none => simp [ih, hf]
    · cases hf : f k' with
      | some v => simp [ih, hk]
      | none => simp [ih, hk]

/-- A map under a patch; `patch` is what becomes of one key. -/
def patchMap (patch : Option α → Option α → Option α → Option α) (base new cur : GoMap κ α) :
    GoMap κ α :=
  if new.entries.isEmpty && !base.entries.isEmpty then ∅
  else
    GoMap.ofKeys (base.keys ++ new.keys ++ cur.keys) fun k =>
      patch (base.lookup k) (new.lookup k) (cur.lookup k)

section Map

variable {patch : Option α → Option α → Option α → Option α} {base new cur : GoMap κ α} {k : κ}

/-- The patch that names keys. -/
theorem lookup_patchMap (hnone : patch none none none = none)
    (hkeys : new.entries ≠ [] ∨ base.entries = []) :
    (patchMap patch base new cur).lookup k =
      patch (base.lookup k) (new.lookup k) (cur.lookup k) := by
  have hcond : (new.entries.isEmpty && !base.entries.isEmpty) = false := by
    rcases hkeys with h | h <;> simp [h]
  rw [patchMap, hcond, if_neg Bool.false_ne_true, GoMap.lookup_ofKeys]
  split
  · rfl
  · next hout =>
    simp only [List.mem_append, not_or, AList.mem_keys.symm] at hout
    rw [AList.lookup_eq_none.mpr hout.1.1, AList.lookup_eq_none.mpr hout.1.2,
      AList.lookup_eq_none.mpr hout.2, hnone]

/-- A key that both versions agree on keeps its value, unless the patch names the whole map. -/
theorem lookup_patchMap_of_eq [DecidableEq α] (hkeys : new.entries ≠ [] ∨ base.entries = [])
    (h : new.lookup k = base.lookup k) :
    (patchMap patchValue base new cur).lookup k = cur.lookup k := by
  rw [lookup_patchMap (patchValue_self none none) hkeys, h, patchValue_same]

end Map

end RuntimeEnforcer.Lib
