import Mathlib.Data.List.Induction
import Mathlib.Data.List.Sort

/-!
# The newest entries of a list

A bounded list that keeps its newest entries: a stable sort by time, newest first, and a cut. What
a cut drops is no newer than anything it keeps, and it drops only when it is full. Where an entry
stands after the sort is a matter of counting (`ahead`): the newer ones come before it, and of its
own time those that stood before it.
-/

set_option autoImplicit false

namespace RuntimeEnforcer.Lib

variable {α τ : Type} [LinearOrder τ] {time : α → τ} {k : Nat} {l : List α}

def newestFirst (time : α → τ) (l : List α) : List α :=
  l.insertionSort fun a b => time b ≤ time a

def newest (time : α → τ) (k : Nat) (l : List α) : List α := (newestFirst time l).take k

def NewestFirst (time : α → τ) (l : List α) : Prop := l.Pairwise fun a b => time b ≤ time a

theorem newestFirst_perm (time : α → τ) (l : List α) : (newestFirst time l).Perm l :=
  List.perm_insertionSort _ l

theorem newestFirst_sorted (time : α → τ) (l : List α) : NewestFirst time (newestFirst time l) := by
  have htotal : Std.Total fun a b : α => time b ≤ time a := ⟨fun a b => le_total (time b) (time a)⟩
  have htrans : IsTrans α fun a b => time b ≤ time a := ⟨fun _ _ _ hab hbc => hbc.trans hab⟩
  exact List.pairwise_insertionSort _ l

theorem newest_sorted : NewestFirst time (newest time k l) :=
  (newestFirst_sorted time l).sublist (List.take_sublist k _)

theorem newest_subperm : (newest time k l).Subperm l :=
  (List.take_sublist k _).subperm.trans (newestFirst_perm time l).subperm

theorem mem_of_mem_newest {x : α} (h : x ∈ newest time k l) : x ∈ l := newest_subperm.subset h

theorem newest_length_le : (newest time k l).length ≤ k := List.length_take_le k _

/-- A list that is already sorted and short enough is its own newest entries. -/
theorem newest_eq_self (hsorted : NewestFirst time l) (hlen : l.length ≤ k) :
    newest time k l = l := by
  rw [newest, newestFirst, List.Pairwise.insertionSort_eq hsorted]
  exact List.take_of_length_le hlen

/-- What a cut drops is no newer than what it keeps. -/
theorem le_of_mem_drop {x y : α} (hy : y ∈ newest time k l)
    (hx : x ∈ (newestFirst time l).drop k) : time x ≤ time y := by
  have hsorted := newestFirst_sorted time l
  rw [NewestFirst, ← List.take_append_drop k (newestFirst time l), List.pairwise_append]
    at hsorted
  exact hsorted.2.2 y hy x hx

/-- A cut that drops an entry is full of entries no older. -/
theorem full_of_not_mem_newest {x : α} (hx : x ∈ l) (hout : x ∉ newest time k l) :
    (newest time k l).length = k ∧ ∀ y ∈ newest time k l, time x ≤ time y := by
  have hmem : x ∈ newestFirst time l := (newestFirst_perm time l).mem_iff.mpr hx
  have hdrop : x ∈ (newestFirst time l).drop k := by
    rw [← List.take_append_drop k (newestFirst time l)] at hmem
    exact (List.mem_append.mp hmem).resolve_left hout
  constructor
  · have hlen : 0 < ((newestFirst time l).drop k).length := List.length_pos_of_mem hdrop
    rw [List.length_drop] at hlen
    exact List.length_take_of_le (by omega)
  · intro y hy
    exact le_of_mem_drop hy hdrop

/-- The newest entry of all is kept. -/
theorem mem_newest_of_lt {x : α} (hk : 0 < k) (h : ∀ y ∈ l, time y < time x) :
    x ∈ newest time k (l ++ [x]) := by
  by_contra hout
  -- a cut that dropped it would hold an entry no older
  obtain ⟨hfull, hnewer⟩ := full_of_not_mem_newest (by simp) hout
  obtain ⟨y, hy⟩ : ∃ y, y ∈ newest time k (l ++ [x]) :=
    List.exists_mem_of_length_pos (by rw [hfull]; exact hk)
  rcases List.mem_append.mp (mem_of_mem_newest hy) with hold | hself
  · exact absurd (hnewer y hy) (not_le.mpr (h y hold))
  · exact hout (List.mem_singleton.mp hself ▸ hy)

/-- Where `k` entries are no older than `t`, none of the `k` newest is. -/
theorem newest_of_countP_le {t : τ} (h : k ≤ l.countP fun x => t ≤ time x) :
    (newest time k l).length = k ∧ ∀ y ∈ newest time k l, t ≤ time y := by
  have hlen : (newestFirst time l).length = l.length := (newestFirst_perm time l).length_eq
  have hcount : (newestFirst time l).countP (fun x => t ≤ time x) = l.countP fun x => t ≤ time x :=
    (newestFirst_perm time l).countP_eq _
  have hfull : (newest time k l).length = k :=
    List.length_take_of_le (hlen ▸ h.trans List.countP_le_length)
  refine ⟨hfull, fun y hy => Classical.byContradiction fun hold => ?_⟩
  -- everything that was cut off is older than `t` then, so all `k` entries stand in the cut, as
  -- does `y`
  have hdrop : ((newestFirst time l).drop k).countP (fun x => t ≤ time x) = 0 := by
    refine List.countP_eq_zero.mpr fun x hx => ?_
    simpa using lt_of_le_of_lt (le_of_mem_drop hy hx) (not_le.mp hold)
  have htake : (newest time k l).countP (fun x => t ≤ time x) < (newest time k l).length := by
    refine lt_of_le_of_ne List.countP_le_length fun heq => hold ?_
    simpa using List.countP_eq_length.mp heq y hy
  rw [← List.take_append_drop k (newestFirst time l), List.countP_append, hdrop] at hcount
  rw [hfull] at htake
  have hk : ((newestFirst time l).take k).countP (fun x => t ≤ time x) < k := htake
  omega

/-! ## Places -/

section Places

variable [DecidableEq α]

/-- How many entries come before `x`, newest first. -/
def ahead (time : α → τ) (l : List α) (x : α) : Nat :=
  l.countP (fun y => time x < time y) + (l.take (l.idxOf x)).countP fun y => time y = time x

theorem idxOf_orderedInsert_self {s : List α} (hs : NewestFirst time s) (a : α) :
    (s.orderedInsert (fun a b => time b ≤ time a) a).idxOf a =
      s.countP fun y => time a < time y := by
  induction s with
  | nil => simp
  | cons b s ih =>
    have hrest := List.pairwise_cons.mp hs
    by_cases hb : time b ≤ time a
    · -- everything from `b` on is no newer than `b`
      have hnone : (b :: s).countP (fun y => time a < time y) = 0 := by
        refine List.countP_eq_zero.mpr fun y hy => ?_
        have hyb : time y ≤ time b := by
          rcases List.mem_cons.mp hy with rfl | hy
          · exact le_refl _
          · exact hrest.1 y hy
        simpa using hyb.trans hb
      rw [List.orderedInsert_cons, if_pos hb, List.idxOf_cons_self, hnone]
    · have hne : b ≠ a := fun h => hb (h ▸ le_refl _)
      rw [List.orderedInsert_cons, if_neg hb, List.idxOf_cons_ne _ hne, ih hrest.2,
        List.countP_cons_of_pos (by simpa using hb)]

theorem idxOf_orderedInsert_of_ne {s : List α} (hs : NewestFirst time s) {a x : α} (hne : x ≠ a)
    (hx : x ∈ s) :
    (s.orderedInsert (fun a b => time b ≤ time a) a).idxOf x =
      s.idxOf x + if time x ≤ time a then 1 else 0 := by
  induction s with
  | nil => cases hx
  | cons b s ih =>
    have hrest := List.pairwise_cons.mp hs
    have hxb : time x ≤ time b := by
      rcases List.mem_cons.mp hx with rfl | hx
      · exact le_refl _
      · exact hrest.1 x hx
    by_cases hb : time b ≤ time a
    · rw [List.orderedInsert_cons, if_pos hb, List.idxOf_cons_ne _ (Ne.symm hne),
        if_pos (hxb.trans hb)]
    · rw [List.orderedInsert_cons, if_neg hb]
      by_cases hxeq : b = x
      · subst hxeq
        rw [List.idxOf_cons_self, List.idxOf_cons_self, if_neg hb]
      · have hmem : x ∈ s := (List.mem_cons.mp hx).resolve_left (Ne.symm hxeq)
        rw [List.idxOf_cons_ne _ hxeq, List.idxOf_cons_ne _ hxeq, ih hrest.2 hmem]
        omega

/-- **The place of an entry after the sort.** -/
theorem idxOf_newestFirst {x : α} (hx : x ∈ l) : (newestFirst time l).idxOf x = ahead time l x := by
  induction l with
  | nil => cases hx
  | cons a l ih =>
    have hsorted := newestFirst_sorted time l
    have hperm := newestFirst_perm time l
    show ((newestFirst time l).orderedInsert (fun a b => time b ≤ time a) a).idxOf x = _
    unfold ahead
    by_cases hxa : x = a
    · subst hxa
      rw [idxOf_orderedInsert_self hsorted, hperm.countP_eq, List.idxOf_cons_self]
      simp
    · have hmem : x ∈ l := (List.mem_cons.mp hx).resolve_left hxa
      rw [idxOf_orderedInsert_of_ne hsorted hxa (hperm.mem_iff.mpr hmem), ih hmem, ahead,
        List.idxOf_cons_ne _ (Ne.symm hxa), List.take_succ_cons, List.countP_cons, List.countP_cons]
      rcases lt_trichotomy (time x) (time a) with h | h | h
      · simp [h, h.le, h.ne']
        omega
      · simp [h]
        omega
      · simp [not_lt_of_gt h, not_le_of_gt h, ne_of_lt h]

/-- The cut keeps an entry that has fewer than `k` before it. -/
theorem mem_newest_iff {x : α} (hx : x ∈ l) : x ∈ newest time k l ↔ ahead time l x < k := by
  have hmem : x ∈ newestFirst time l := (newestFirst_perm time l).mem_iff.mpr hx
  rw [← idxOf_newestFirst hx, newest, List.mem_take_iff_idxOf_lt hmem]

/-! Places among entries are places among their keys. -/

variable {κ : Type} [DecidableEq κ] {key : α → κ}

theorem idxOf_map_of_nodup (hkeys : (l.map key).Nodup) {x : α} (hx : x ∈ l) :
    (l.map key).idxOf (key x) = l.idxOf x := by
  induction l with
  | nil => cases hx
  | cons a l ih =>
    rw [List.map_cons, List.nodup_cons] at hkeys
    rw [List.map_cons]
    by_cases hxa : a = x
    · rw [hxa, List.idxOf_cons_self, List.idxOf_cons_self]
    · have hmem : x ∈ l := (List.mem_cons.mp hx).resolve_left (Ne.symm hxa)
      have hkey : key a ≠ key x := fun heq => hkeys.1 (heq ▸ List.mem_map_of_mem hmem)
      rw [List.idxOf_cons_ne _ hkey, List.idxOf_cons_ne _ hxa, ih hkeys.2 hmem]

theorem ahead_map {timeOf : κ → τ} (hkeys : (l.map key).Nodup)
    (htime : ∀ x ∈ l, time x = timeOf (key x)) {x : α} (hx : x ∈ l) :
    ahead timeOf (l.map key) (key x) = ahead time l x := by
  have hcount : ∀ l' ⊆ l, ∀ p : τ → Bool,
      (l'.map key).countP (fun k => p (timeOf k)) = l'.countP fun y => p (time y) := by
    intro l' hl' p
    rw [List.countP_map]
    exact List.countP_congr fun y hy => by rw [Function.comp_apply, htime y (hl' hy)]
  unfold ahead
  rw [idxOf_map_of_nodup hkeys hx, ← List.map_take, ← htime x hx,
    hcount l (List.Subset.refl l) fun t => time x < t,
    hcount _ (List.take_subset _ l) fun t => t = time x]

end Places

/-! ## First occurrences -/

section Firsts

variable {κ : Type} [DecidableEq κ] {xs : List κ}

/-- Each element once, where it stands first. -/
def firsts (xs : List κ) : List κ :=
  xs.foldl (fun seen x => if x ∈ seen then seen else seen ++ [x]) []

theorem firsts_push (xs : List κ) (x : κ) :
    firsts (xs ++ [x]) = if x ∈ firsts xs then firsts xs else firsts xs ++ [x] := by
  rw [firsts, List.foldl_concat, ← firsts]

theorem mem_firsts {x : κ} : x ∈ firsts xs ↔ x ∈ xs := by
  induction xs using List.reverseRecOn generalizing x with
  | nil => exact Iff.rfl
  | append_singleton xs y ih =>
    rw [firsts_push, List.mem_append, List.mem_singleton]
    split
    · next hy =>
      rw [ih]
      exact ⟨.inl, fun h => h.elim id fun heq => heq ▸ ih.mp hy⟩
    · rw [List.mem_append, List.mem_singleton, ih]

theorem nodup_firsts (xs : List κ) : (firsts xs).Nodup := by
  induction xs using List.reverseRecOn with
  | nil => exact List.nodup_nil
  | append_singleton xs x ih =>
    rw [firsts_push]
    split
    · exact ih
    · next hx =>
      rw [← List.concat_eq_append]
      exact ih.concat hx

theorem firsts_of_nodup (h : xs.Nodup) : firsts xs = xs := by
  induction xs using List.reverseRecOn with
  | nil => rfl
  | append_singleton xs x ih =>
    rw [← List.concat_eq_append, List.nodup_concat] at h
    rw [firsts_push, ih h.2, if_neg h.1]

end Firsts

end RuntimeEnforcer.Lib
