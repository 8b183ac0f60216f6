import Mathlib.Algebra.Order.Ring.Nat
import Mathlib.Data.Fin.Basic
import Mathlib.Logic.Function.Basic

/-!
# Ring buffers

A fixed array and a count of what was put into it since it was last emptied. What the ring holds,
newest first, is a list cut to the capacity: `contents` reads it off the array, and
`contents_record` is the one place where the arithmetic of the wrap is done.
-/

set_option autoImplicit false

namespace RuntimeEnforcer.Lib

variable {α : Type} {cap : Nat} [NeZero cap]

/-- An array of `cap` slots, and how many entries were recorded since the last drain. -/
structure Ring (α : Type) (cap : Nat) where
  buf : Fin cap → α
  pos : Nat := 0

namespace Ring

def slot (cap : Nat) [NeZero cap] (n : Nat) : Fin cap := Fin.ofNat cap n

/-- The entry is written over the oldest one when the ring is full, and the flag says so. -/
def record (x : α) (r : Ring α cap) : Bool × Ring α cap :=
  (decide (cap ≤ r.pos),
    { buf := Function.update r.buf (slot cap r.pos) x, pos := r.pos + 1 })

def contents (r : Ring α cap) : List α :=
  (List.range (min r.pos cap)).map fun i => r.buf (slot cap (r.pos - 1 - i))

def drain (r : Ring α cap) : List α × Ring α cap :=
  if min r.pos cap = 0 then ([], r) else (r.contents, { r with pos := 0 })

@[simp] theorem record_pos (x : α) (r : Ring α cap) : (r.record x).2.pos = r.pos + 1 := rfl

theorem length_contents (r : Ring α cap) : r.contents.length = min r.pos cap := by simp [contents]

/-- Two entries fewer than `cap` apart do not share a slot. -/
theorem slot_ne {m n : Nat} (hlt : m < n) (hnear : n - m < cap) : slot cap m ≠ slot cap n := by
  intro h
  have hmod : n % cap = m % cap := congrArg Fin.val h.symm
  have hzero : (n - m) % cap = 0 := Nat.sub_mod_eq_zero_of_mod_eq hmod
  rw [Nat.mod_eq_of_lt hnear] at hzero
  omega

/-- **Recording is putting in front and cutting to the capacity.** -/
theorem contents_record (x : α) (r : Ring α cap) :
    (r.record x).2.contents = (x :: r.contents).take cap := by
  have hcap : 0 < cap := Nat.pos_of_neZero cap
  refine List.ext_getElem ?_ fun i h₁ h₂ => ?_
  · rw [length_contents, List.length_take, List.length_cons, length_contents, record_pos]
    omega
  · have hi : i < min (r.pos + 1) cap := by simpa [length_contents] using h₁
    rw [List.getElem_take]
    cases i with
    | zero => simp [contents, record]
    | succ j =>
      have hne : slot cap (r.pos - 1 - j) ≠ slot cap r.pos := slot_ne (by omega) (by omega)
      have hidx : r.pos - (j + 1) = r.pos - 1 - j := by omega
      simp [contents, record, hidx, Function.update_of_ne hne]

/-- While the ring is not full nothing is lost. -/
theorem contents_record_of_lt {r : Ring α cap} (x : α) (h : r.pos < cap) :
    (r.record x).2.contents = x :: r.contents := by
  rw [contents_record, List.take_of_length_le]
  rw [List.length_cons, length_contents]
  omega

/-- What recording adds to the contents, it adds to them or loses and says so. -/
theorem length_contents_record (x : α) (r : Ring α cap) :
    (r.record x).2.contents.length + (if (r.record x).1 then 1 else 0) = r.contents.length + 1 := by
  rw [length_contents, length_contents, record_pos]
  unfold record
  simp only [decide_eq_true_eq]
  split <;> omega

theorem drain_fst (r : Ring α cap) : r.drain.1 = r.contents := by
  unfold drain
  split
  · next h => simp [contents, h]
  · rfl

theorem drain_pos (r : Ring α cap) : r.drain.2.pos = 0 := by
  have hcap : 0 < cap := Nat.pos_of_neZero cap
  unfold drain
  split
  · show r.pos = 0
    omega
  · rfl

theorem contents_drain (r : Ring α cap) : r.drain.2.contents = [] := by
  simp [contents, drain_pos]

end Ring

end RuntimeEnforcer.Lib
