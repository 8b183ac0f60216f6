import Mathlib.Algebra.Order.Ring.Nat
import Mathlib.Data.List.Basic
import Mathlib.Data.List.GetD

/-!
# Byte buffers

A buffer is the byte at every offset; a write replaces a run of bytes. Reading a window of a
buffer gives the list of its bytes, and the lemmas say when a window sees a write whole, in part,
or not at all.
-/

set_option autoImplicit false

namespace RuntimeEnforcer.Lib

variable {pos n : Nat}

abbrev Bytes := List UInt8

instance instLawfulBEqBytes : LawfulBEq Bytes := inferInstance

abbrev Buffer := Nat → UInt8

def Buffer.write (buf : Buffer) (pos : Nat) (bs : Bytes) : Buffer := fun i =>
  if pos ≤ i then (bs[i - pos]?).getD (buf i) else buf i

def Buffer.window (buf : Buffer) (pos n : Nat) : Bytes :=
  (List.range n).map fun i => buf (pos + i)

@[simp] theorem Buffer.length_window (buf : Buffer) (pos n : Nat) :
    (buf.window pos n).length = n := by
  simp [Buffer.window]

theorem Buffer.getElem?_window (buf : Buffer) (pos n i : Nat) :
    (buf.window pos n)[i]? = if i < n then some (buf (pos + i)) else none := by
  unfold Buffer.window
  by_cases h : i < n
  · simp [h]
  · simp [h]

/-- A window that holds `bs` holds it byte by byte. -/
theorem Buffer.window_eq_iff {buf : Buffer} {bs : Bytes} (hn : bs.length = n) :
    buf.window pos n = bs ↔ ∀ i, i < n → bs[i]? = some (buf (pos + i)) := by
  subst hn
  constructor
  · intro h i hi
    rw [← h, Buffer.getElem?_window, if_pos (by simpa using hi)]
  · intro h
    refine List.ext_getElem? fun i => ?_
    rw [Buffer.getElem?_window]
    by_cases hi : i < bs.length
    · rw [if_pos hi, h i hi]
    · rw [if_neg hi, List.getElem?_eq_none (by omega)]

theorem Buffer.window_congr {b b' : Buffer} (h : ∀ i, pos ≤ i → i < pos + n → b i = b' i) :
    b.window pos n = b'.window pos n := by
  refine List.map_congr_left fun i hi => ?_
  exact h _ (by omega) (by have := List.mem_range.mp hi; omega)

theorem Buffer.window_add (buf : Buffer) (pos n k : Nat) :
    buf.window pos (n + k) = buf.window pos n ++ buf.window (pos + n) k := by
  unfold Buffer.window
  rw [List.range_add, List.map_append, List.map_map]
  simp [Function.comp_def, Nat.add_assoc]

/-! ## Writes -/

variable {buf : Buffer} {bs : Bytes} {i : Nat}

theorem Buffer.write_below (h : i < pos) : buf.write pos bs i = buf i := by
  simp [Buffer.write, Nat.not_le.mpr h]

theorem Buffer.write_above (h : pos + bs.length ≤ i) : buf.write pos bs i = buf i := by
  unfold Buffer.write
  rw [if_pos (by omega), List.getElem?_eq_none (by omega)]
  rfl

theorem Buffer.write_inside (h₁ : pos ≤ i) (h₂ : i < pos + bs.length) :
    some (buf.write pos bs i) = bs[i - pos]? := by
  unfold Buffer.write
  rw [if_pos h₁, List.getElem?_eq_getElem (by omega)]
  rfl

@[simp] theorem Buffer.write_nil (buf : Buffer) (pos : Nat) : buf.write pos [] = buf := by
  funext i
  simp [Buffer.write]

theorem Buffer.window_write (buf : Buffer) (pos : Nat) (bs : Bytes) :
    (buf.write pos bs).window pos bs.length = bs := by
  refine (Buffer.window_eq_iff rfl).mpr fun i hi => ?_
  have h : some (buf.write pos bs (pos + i)) = bs[pos + i - pos]? :=
    Buffer.write_inside (by omega) (by omega)
  rw [h, Nat.add_sub_cancel_left]

theorem Buffer.window_write_below {p : Nat} (h : p + n ≤ pos) :
    (buf.write pos bs).window p n = buf.window p n :=
  Buffer.window_congr fun _ _ h₂ => Buffer.write_below (by omega)

end RuntimeEnforcer.Lib
