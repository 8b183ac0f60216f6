import Mathlib.Data.List.Lex
import Mathlib.Data.List.Sort
import RuntimeEnforcer.Lib.ByteBuffer

/-!
# Sorted slices

`slices.BinarySearch` and `slices.Sort`. The search is the loop of the standard library, with its
half-open window; it finds what a sorted slice holds (`binarySearch_found`). Sorting elements that
are all different gives a strictly increasing slice. Strings are byte strings here, and they are
compared byte by byte.
-/

set_option autoImplicit false

namespace RuntimeEnforcer.Lib

/-- Bytes in their usual order; byte strings are then ordered as `cmp.Less` orders strings. -/
instance instLinearOrderUInt8 : LinearOrder UInt8 where
  le_refl := UInt8.le_refl
  le_trans _ _ _ := UInt8.le_trans
  le_antisymm _ _ := UInt8.le_antisymm
  le_total := UInt8.le_total
  lt_iff_le_not_ge a b := by
    rw [UInt8.not_le]
    exact ⟨fun h => ⟨UInt8.le_of_lt h, h⟩, fun h => h.2⟩
  toDecidableLE := inferInstance
  toDecidableLT := inferInstance
  toDecidableEq := inferInstance

variable {α : Type} [LinearOrder α]

/-! ## Searching -/

/-- The loop of `slices.BinarySearch`; as many rounds as the window is long are enough. -/
def binarySearchLoop (x : List α) (target : α) : Nat → Nat → Nat → Nat
  | 0, i, _ => i
  | fuel + 1, i, j =>
    if i < j then
      let h := (i + j) / 2
      if x[h]?.any (· < target) then binarySearchLoop x target fuel (h + 1) j
      else binarySearchLoop x target fuel i h
    else i

/-- `slices.BinarySearch`: where the target is or would be, and whether it is there. -/
def binarySearch (x : List α) (target : α) : Nat × Bool :=
  let i := binarySearchLoop x target x.length 0 x.length
  (i, decide (x[i]? = some target))

/-- All before `i` is smaller than the target, and nothing from `j` on is. -/
structure Window (x : List α) (target : α) (i j : Nat) : Prop where
  below : ∀ k y, k < i → x[k]? = some y → y < target
  above : ∀ k y, j ≤ k → x[k]? = some y → target ≤ y

theorem getElem?_le_of_le {x : List α} (hsorted : x.Pairwise (· ≤ ·)) {k h : Nat} {a b : α}
    (hkh : k ≤ h) (ha : x[k]? = some a) (hb : x[h]? = some b) : a ≤ b := by
  obtain ⟨hk, rfl⟩ := List.getElem?_eq_some_iff.mp ha
  obtain ⟨hh, rfl⟩ := List.getElem?_eq_some_iff.mp hb
  rcases Nat.lt_or_eq_of_le hkh with hlt | rfl
  · exact List.pairwise_iff_getElem.mp hsorted k h hk hh hlt
  · exact le_refl _

/-- **The window closes on the place of the target.** -/
theorem window_binarySearchLoop {x : List α} (hsorted : x.Pairwise (· ≤ ·)) {target : α}
    {fuel i j : Nat} (hfuel : j ≤ i + fuel) (hj : j ≤ x.length) (h : Window x target i j) :
    Window x target (binarySearchLoop x target fuel i j)
      (binarySearchLoop x target fuel i j) := by
  induction fuel generalizing i j with
  | zero => exact ⟨h.below, fun k y hk => h.above k y (Nat.le_trans hfuel hk)⟩
  | succ fuel ih =>
    rw [binarySearchLoop]
    split
    · next hij =>
      have hmid : (i + j) / 2 < x.length := by omega
      obtain ⟨m, hm⟩ : ∃ m, x[(i + j) / 2]? = some m := ⟨_, List.getElem?_eq_getElem hmid⟩
      dsimp only
      rw [hm, Option.any_some]
      split
      · next hless =>
        -- the middle and all before it are smaller
        refine ih (by omega) hj ⟨fun k y hk hy => ?_, h.above⟩
        exact lt_of_le_of_lt (getElem?_le_of_le hsorted (Nat.le_of_lt_succ hk) hy hm)
          (of_decide_eq_true hless)
      · next hless =>
        refine ih (by omega) (Nat.le_of_lt hmid) ⟨h.below, fun k y hk hy => ?_⟩
        have hle : target ≤ m := not_lt.mp fun hlt => hless (decide_eq_true hlt)
        exact hle.trans (getElem?_le_of_le hsorted hk hm hy)
    · next hij => exact ⟨h.below, fun k y hk => h.above k y (by omega)⟩

/-- **The search finds what the slice holds.** -/
theorem binarySearch_found {x : List α} (hsorted : x.Pairwise (· ≤ ·)) (target : α) :
    (binarySearch x target).2 = true ↔ target ∈ x := by
  have hstart : Window x target 0 x.length := by
    refine ⟨fun k y hk => absurd hk (Nat.not_lt_zero k), fun k y hk hy => ?_⟩
    rw [List.getElem?_eq_none hk] at hy
    cases hy
  have hend := window_binarySearchLoop hsorted (Nat.le_add_left x.length 0) (Nat.le_refl _) hstart
  simp only [binarySearch, decide_eq_true_eq]
  refine ⟨fun hfound => List.mem_of_getElem? hfound, fun hmem => ?_⟩
  obtain ⟨k, hk⟩ := List.mem_iff_getElem?.mp hmem
  have hle : binarySearchLoop x target x.length 0 x.length ≤ k := by
    by_contra hlt
    exact lt_irrefl target (hend.below k target (not_le.mp hlt) hk)
  obtain ⟨hlen, _⟩ := List.getElem?_eq_some_iff.mp hk
  have hget := List.getElem?_eq_getElem (Nat.lt_of_le_of_lt hle hlen)
  -- not smaller than the target, and not behind it
  rw [hget, le_antisymm (getElem?_le_of_le hsorted hle hget hk)
    (hend.above _ _ (Nat.le_refl _) hget)]

/-! ## Sorting -/

theorem pairwise_lt_insertionSort {l : List α} (h : l.Nodup) :
    (l.insertionSort (· ≤ ·)).Pairwise (· < ·) := by
  have hnodup : (l.insertionSort (· ≤ ·)).Nodup := (List.perm_insertionSort _ l).nodup_iff.mpr h
  exact ((List.pairwise_insertionSort (· ≤ ·) l).and hnodup).imp fun hab =>
    lt_of_le_of_ne hab.1 hab.2

end RuntimeEnforcer.Lib
