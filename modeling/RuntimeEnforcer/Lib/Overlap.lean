import Mathlib.Data.List.Basic
import Mathlib.Data.Nat.Find

/-!
# Prefixes of a pattern at the end of a list

A search for the longest prefix of a pattern that ends a list. When the list itself ends with a
prefix of the pattern, a longer one is an overlap of two copies of the pattern: the pattern then
meets its own first elements again further on (`overlap_getElem?`), and what stands in front of
the second copy is again a prefix of the pattern (`overlap_front`).
-/

set_option autoImplicit false

namespace RuntimeEnforcer.Lib

variable {α : Type}

section Overlap

variable {pat front : List α} {i j : Nat}

/-- The first copy of the pattern, cut where the second begins, ends what is in front. -/
theorem overlap_front (hi : i ≤ pat.length) (hj : j ≤ i)
    (h : pat.take i <:+ front ++ pat.take j) : pat.take (i - j) <:+ front := by
  obtain ⟨t, ht⟩ := h
  have hsplit : (t ++ pat.take (i - j)) ++ (pat.drop (i - j)).take j = front ++ pat.take j := by
    rw [← ht, List.append_assoc, ← List.take_add, Nat.sub_add_cancel hj]
  have hlen : ((pat.drop (i - j)).take j).length = (pat.take j).length := by
    simp only [List.length_take, List.length_drop]
    omega
  exact ⟨t, (List.append_inj' hsplit hlen).1⟩

/-- The second copy is read off the first. -/
theorem overlap_getElem? (hi : i ≤ pat.length) (hj : j ≤ i)
    (h : pat.take i <:+ front ++ pat.take j) {k : Nat} (hk : k < j) :
    pat[i - j + k]? = pat[k]? := by
  obtain ⟨t, ht⟩ := h
  have hsplit : (t ++ pat.take (i - j)) ++ (pat.drop (i - j)).take j = front ++ pat.take j := by
    rw [← ht, List.append_assoc, ← List.take_add, Nat.sub_add_cancel hj]
  have hlen : ((pat.drop (i - j)).take j).length = (pat.take j).length := by
    simp only [List.length_take, List.length_drop]
    omega
  have hcopy := congrArg (fun l => l[k]?) (List.append_inj' hsplit hlen).2
  simpa [List.getElem?_take, hk, List.getElem?_drop] using hcopy

end Overlap

section Search

variable [DecidableEq α] (least : Nat) (pat l : List α)

/-- The length of the longest prefix of `pat`, of `least` elements or more, that ends `l`; none
where there is no such prefix. -/
def longestMatch : Option Nat :=
  let i := Nat.findGreatest (fun i => least ≤ i ∧ pat.take i <:+ l) pat.length
  if least ≤ i ∧ pat.take i <:+ l then some i else none

variable {least pat l}

theorem longestMatch_eq_some {i : Nat} (hl : least ≤ i) (hi : i ≤ pat.length)
    (h : pat.take i <:+ l)
    (hmax : ∀ k, i < k → k ≤ pat.length → ¬ pat.take k <:+ l) :
    longestMatch least pat l = some i := by
  have hfind : Nat.findGreatest (fun i => least ≤ i ∧ pat.take i <:+ l) pat.length = i := by
    rw [Nat.findGreatest_eq_iff]
    exact ⟨hi, fun _ => ⟨hl, h⟩, fun k hk hle hP => hmax k hk hle hP.2⟩
  simp only [longestMatch, hfind]
  rw [if_pos ⟨hl, h⟩]

theorem longestMatch_eq_none
    (h : ∀ k, least ≤ k → k ≤ pat.length → ¬ pat.take k <:+ l) :
    longestMatch least pat l = none := by
  simp only [longestMatch]
  rw [if_neg fun hP => h _ hP.1 (Nat.findGreatest_le _) hP.2]

end Search

end RuntimeEnforcer.Lib
