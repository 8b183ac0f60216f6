import Mathlib.Data.List.Perm.Basic

/-!
# The full outer join of two lists

Two lists are joined by a key: an element whose key the other list lacks is reported alone, and
two elements of one key are reported together. `outerJoin` says what comes out, and not in which
order, so everything about it is up to permutation. The lemmas are those that a program needs that
works through the two lists: what comes out for more elements on the left, on the right, or for
two more that match.
-/

set_option autoImplicit false

namespace RuntimeEnforcer.Lib

variable {α β γ κ : Type} [DecidableEq κ]

/-- The elements with none of these keys. -/
def withoutKeys (key : α → κ) (ks : List κ) (xs : List α) : List α := xs.filter fun x => key x ∉ ks

def joinPairs (keyL : α → κ) (keyR : β → κ) (both : α → β → List γ) (xs : List α) (ys : List β) :
    List γ :=
  xs.flatMap fun x => (ys.filter fun y => keyR y = keyL x).flatMap (both x)

/-- The elements that only `xs` has, those that only `ys` has, and the pairs of one key. -/
def outerJoin (keyL : α → κ) (keyR : β → κ) (left : α → γ) (right : β → γ) (both : α → β → List γ)
    (xs : List α) (ys : List β) : List γ :=
  (withoutKeys keyL (ys.map keyR) xs).map left ++ (withoutKeys keyR (xs.map keyL) ys).map right ++
    joinPairs keyL keyR both xs ys

/-! ## The parts -/

section WithoutKeys

variable {key : α → κ} {ks ks' : List κ} {xs zs : List α}

theorem withoutKeys_append :
    withoutKeys key ks (xs ++ zs) = withoutKeys key ks xs ++ withoutKeys key ks zs :=
  List.filter_append ..

theorem withoutKeys_eq_self (h : ∀ x ∈ xs, key x ∉ ks) : withoutKeys key ks xs = xs :=
  List.filter_eq_self.mpr fun x hx => decide_eq_true (h x hx)

theorem withoutKeys_append_keys (h : ∀ x ∈ xs, key x ∉ ks') :
    withoutKeys key (ks ++ ks') xs = withoutKeys key ks xs := by
  refine List.filter_congr fun x hx => decide_eq_decide.mpr ?_
  rw [List.mem_append, not_or]
  exact and_iff_left (h x hx)

end WithoutKeys

section JoinPairs

variable {keyL : α → κ} {keyR : β → κ} {both : α → β → List γ} {xs zs : List α} {ys ws : List β}

theorem joinPairs_append_left :
    joinPairs keyL keyR both (xs ++ zs) ys =
      joinPairs keyL keyR both xs ys ++ joinPairs keyL keyR both zs ys :=
  List.flatMap_append

theorem joinPairs_eq_nil (h : ∀ x ∈ xs, ∀ y ∈ ys, keyR y ≠ keyL x) :
    joinPairs keyL keyR both xs ys = [] := by
  refine List.flatMap_eq_nil_iff.mpr fun x hx => ?_
  have hnone : (ys.filter fun y => keyR y = keyL x) = [] :=
    List.filter_eq_nil_iff.mpr fun y hy => by simpa using h x hx y hy
  rw [hnone, List.flatMap_nil]

theorem joinPairs_append_right (h : ∀ x ∈ xs, ∀ w ∈ ws, keyR w ≠ keyL x) :
    joinPairs keyL keyR both xs (ys ++ ws) = joinPairs keyL keyR both xs ys := by
  refine List.flatMap_congr fun x hx => ?_
  have hnone : (ws.filter fun w => keyR w = keyL x) = [] :=
    List.filter_eq_nil_iff.mpr fun w hw => by simpa using h x hx w hw
  rw [List.filter_append, hnone, List.append_nil]

end JoinPairs

/-! ## More elements -/

section Join

variable {keyL : α → κ} {keyR : β → κ} {left : α → γ} {right : β → γ} {both : α → β → List γ}
  {xs zs : List α} {ys ws : List β}

/-- Elements on the left that have no partner. -/
theorem outerJoin_append_left (h : ∀ z ∈ zs, ∀ y ∈ ys, keyR y ≠ keyL z) :
    (outerJoin keyL keyR left right both (xs ++ zs) ys).Perm
      (outerJoin keyL keyR left right both xs ys ++ zs.map left) := by
  have hleft : ∀ z ∈ zs, keyL z ∉ ys.map keyR := fun z hz hmem => by
    obtain ⟨y, hy, hkey⟩ := List.mem_map.mp hmem
    exact h z hz y hy hkey
  have hright : ∀ y ∈ ys, keyR y ∉ zs.map keyL := fun y hy hmem => by
    obtain ⟨z, hz, hkey⟩ := List.mem_map.mp hmem
    exact h z hz y hy hkey.symm
  unfold outerJoin
  rw [withoutKeys_append, withoutKeys_eq_self hleft, List.map_append, List.map_append,
    withoutKeys_append_keys hright, joinPairs_append_left, joinPairs_eq_nil h, List.append_nil]
  simp only [List.append_assoc]
  refine List.Perm.append_left _ ?_
  rw [← List.append_assoc (_ : List γ) _ (zs.map left)]
  exact List.perm_append_comm

/-- Elements on the right that have no partner. -/
theorem outerJoin_append_right (h : ∀ x ∈ xs, ∀ w ∈ ws, keyR w ≠ keyL x) :
    (outerJoin keyL keyR left right both xs (ys ++ ws)).Perm
      (outerJoin keyL keyR left right both xs ys ++ ws.map right) := by
  have hleft : ∀ x ∈ xs, keyL x ∉ ws.map keyR := fun x hx hmem => by
    obtain ⟨w, hw, hkey⟩ := List.mem_map.mp hmem
    exact h x hx w hw hkey
  have hright : ∀ w ∈ ws, keyR w ∉ xs.map keyL := fun w hw hmem => by
    obtain ⟨x, hx, hkey⟩ := List.mem_map.mp hmem
    exact h x hx w hw hkey.symm
  unfold outerJoin
  rw [List.map_append, withoutKeys_append_keys hleft, withoutKeys_append,
    withoutKeys_eq_self hright, List.map_append, joinPairs_append_right h]
  simp only [List.append_assoc]
  exact List.Perm.append_left _ (List.Perm.append_left _ List.perm_append_comm)

/-- Two more elements of one key, which is new on both sides. -/
theorem outerJoin_push_both {x : α} {y : β} (hkey : keyR y = keyL x)
    (hx : ∀ x' ∈ xs, keyR y ≠ keyL x') (hy : ∀ y' ∈ ys, keyR y' ≠ keyL x) :
    outerJoin keyL keyR left right both (xs ++ [x]) (ys ++ [y]) =
      outerJoin keyL keyR left right both xs ys ++ both x y := by
  have hleft : withoutKeys keyL ((ys ++ [y]).map keyR) (xs ++ [x]) =
      withoutKeys keyL (ys.map keyR) xs := by
    rw [withoutKeys_append, List.map_append, withoutKeys_append_keys fun x' hx' => by
      simpa using (hx x' hx').symm]
    simp [withoutKeys, hkey]
  have hright : withoutKeys keyR ((xs ++ [x]).map keyL) (ys ++ [y]) =
      withoutKeys keyR (xs.map keyL) ys := by
    rw [withoutKeys_append, List.map_append, withoutKeys_append_keys fun y' hy' => by
      simpa using hy y' hy']
    simp [withoutKeys, hkey]
  have hboth : joinPairs keyL keyR both (xs ++ [x]) (ys ++ [y]) =
      joinPairs keyL keyR both xs ys ++ both x y := by
    rw [joinPairs_append_left, joinPairs_append_right fun x' hx' w hw => by
      rw [List.mem_singleton.mp hw]
      exact hx x' hx']
    have hfilter : (ys.filter fun y' => keyR y' = keyL x) = [] :=
      List.filter_eq_nil_iff.mpr fun y' hy' => by simpa using hy y' hy'
    simp [joinPairs, hfilter, hkey]
  rw [outerJoin, hleft, hright, hboth, ← List.append_assoc]
  rfl

/-! ## Other orders -/

theorem outerJoin_perm {xs' : List α} {ys' : List β} (hxs : xs.Perm xs') (hys : ys.Perm ys')
    {both' : α → β → List γ} (hboth : ∀ x y, (both x y).Perm (both' x y)) :
    (outerJoin keyL keyR left right both xs ys).Perm
      (outerJoin keyL keyR left right both' xs' ys') := by
  have hleft : withoutKeys keyL (ys.map keyR) xs = withoutKeys keyL (ys'.map keyR) xs :=
    List.filter_congr fun x _ => decide_eq_decide.mpr (not_congr (hys.map keyR).mem_iff)
  have hright : withoutKeys keyR (xs.map keyL) ys = withoutKeys keyR (xs'.map keyL) ys :=
    List.filter_congr fun y _ => decide_eq_decide.mpr (not_congr (hxs.map keyL).mem_iff)
  unfold outerJoin
  rw [hleft, hright]
  refine (((hxs.filter _).map left).append ((hys.filter _).map right)).append ?_
  refine (List.Perm.flatMap_left xs fun x _ => ?_).trans (hxs.flatMap_right _)
  exact (List.Perm.flatMap_left _ fun y _ => hboth x y).trans ((hys.filter _).flatMap_right _)

/-- The join is empty if every element has partners, and no pair has anything to report. -/
theorem outerJoin_eq_nil_iff :
    outerJoin keyL keyR left right both xs ys = [] ↔
      (∀ k, k ∈ xs.map keyL ↔ k ∈ ys.map keyR) ∧
        ∀ x ∈ xs, ∀ y ∈ ys, keyR y = keyL x → both x y = [] := by
  simp only [outerJoin, List.append_eq_nil_iff, List.map_eq_nil_iff, withoutKeys,
    List.filter_eq_nil_iff, decide_eq_true_eq, Classical.not_not, joinPairs,
    List.flatMap_eq_nil_iff, List.mem_filter, and_imp]
  refine and_congr_left' ⟨fun h k => ?_, fun h => ⟨fun x hx => ?_, fun y hy => ?_⟩⟩
  · constructor
    · intro hk
      obtain ⟨x, hx, rfl⟩ := List.mem_map.mp hk
      exact h.1 x hx
    · intro hk
      obtain ⟨y, hy, rfl⟩ := List.mem_map.mp hk
      exact h.2 y hy
  · exact (h _).mp (List.mem_map_of_mem hx)
  · exact (h _).mpr (List.mem_map_of_mem hy)

end Join

end RuntimeEnforcer.Lib
