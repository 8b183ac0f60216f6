import RuntimeEnforcer.Lib.ByteBuffer

/-!
# Numbers and records in bytes

`encoding/binary`: a number of a fixed width, in either byte order, the numbers of a record, and a
slice of records of one size. What was written in a byte order is read back in it, up to the width
(`uint_put`, `fields_putFields`), and records written one after the other are read back one by one
(`decodeSlice_flatMap`).
-/

set_option autoImplicit false

namespace RuntimeEnforcer.Lib

inductive ByteOrder
  | little
  | big
  deriving DecidableEq, Repr

namespace ByteOrder

/-- Bytes of a number with the lowest first, from and to the order. -/
def arrange : ByteOrder → Bytes → Bytes
  | little, bs => bs
  | big, bs => bs.reverse

def uint (o : ByteOrder) (bs : Bytes) : Nat :=
  (o.arrange bs).foldr (fun c n => c.toNat + 256 * n) 0

def put (o : ByteOrder) (w n : Nat) : Bytes :=
  o.arrange ((List.range w).map fun i => UInt8.ofNat (n / 256 ^ i))

theorem arrange_arrange (o : ByteOrder) (bs : Bytes) : o.arrange (o.arrange bs) = bs := by
  cases o with
  | little => rfl
  | big => exact List.reverse_reverse bs

@[simp] theorem length_put (o : ByteOrder) (w n : Nat) : (o.put w n).length = w := by
  cases o with
  | little => simp [put, arrange]
  | big => simp [put, arrange]

theorem put_little_succ (w n : Nat) :
    little.put (w + 1) n = UInt8.ofNat n :: little.put w (n / 256) := by
  simp only [put, arrange]
  rw [List.range_succ_eq_map, List.map_cons, List.map_map]
  refine List.cons_eq_cons.mpr ⟨by simp, List.map_congr_left fun i _ => ?_⟩
  rw [Function.comp_apply, Nat.succ_eq_add_one, Nat.pow_succ', Nat.div_div_eq_div_mul]

theorem uint_put_little (w n : Nat) : little.uint (little.put w n) = n % 256 ^ w := by
  induction w generalizing n with
  | zero => simp [put, arrange, uint, Nat.mod_one]
  | succ w ih =>
    have hstep : little.uint (little.put (w + 1) n)
        = (UInt8.ofNat n).toNat + 256 * little.uint (little.put w (n / 256)) := by
      rw [put_little_succ]
      rfl
    rw [hstep, ih, Nat.pow_succ', Nat.mod_mul]
    simp

/-- **A number is read back in the order it was written in.** -/
theorem uint_put (o : ByteOrder) (w n : Nat) : o.uint (o.put w n) = n % 256 ^ w := by
  rw [uint, put, arrange_arrange]
  exact uint_put_little w n

/-! ## Records with several fields -/

/-- Numbers of the given widths, one after the other. -/
def fields (o : ByteOrder) : List Nat → Bytes → List Nat
  | [], _ => []
  | w :: ws, bs => o.uint (bs.take w) :: fields o ws (bs.drop w)

/-- Fields with their widths, one after the other. -/
def putFields (o : ByteOrder) : List (Nat × Nat) → Bytes
  | [] => []
  | (w, n) :: fs => o.put w n ++ putFields o fs

theorem length_putFields (o : ByteOrder) (fs : List (Nat × Nat)) :
    (o.putFields fs).length = (fs.map Prod.fst).sum := by
  induction fs with
  | nil => rfl
  | cons f fs ih => simp [putFields, ih]

/-- **A record is read back field by field.** -/
theorem fields_putFields (o : ByteOrder) {fs : List (Nat × Nat)}
    (hfits : ∀ f ∈ fs, f.2 < 256 ^ f.1) :
    o.fields (fs.map Prod.fst) (o.putFields fs) = fs.map Prod.snd := by
  induction fs with
  | nil => rfl
  | cons f fs ih =>
    obtain ⟨w, n⟩ := f
    have hn : n < 256 ^ w := hfits (w, n) List.mem_cons_self
    simp only [putFields, fields, List.map_cons]
    rw [List.take_left' (length_put o w n), List.drop_left' (length_put o w n), uint_put,
      Nat.mod_eq_of_lt hn, ih fun f hf => hfits f (List.mem_cons_of_mem _ hf)]

end ByteOrder

/-! ## Slices of records -/

section Records

variable {α β : Type}

/-- `count` records of `size` bytes. -/
def decodeSlice (size : Nat) (decode : Bytes → α) : Nat → Bytes → List α
  | 0, _ => []
  | count + 1, data => decode (data.take size) :: decodeSlice size decode count (data.drop size)

theorem decodeSlice_flatMap {size : Nat} {decode : Bytes → α} {encode : β → Bytes} {read : β → α}
    (hsize : ∀ x, (encode x).length = size) (hread : ∀ x, decode (encode x) = read x)
    (xs : List β) : decodeSlice size decode xs.length (xs.flatMap encode) = xs.map read := by
  induction xs with
  | nil => rfl
  | cons x xs ih =>
    rw [List.flatMap_cons, List.length_cons, List.map_cons, decodeSlice,
      List.take_left' (hsize x), List.drop_left' (hsize x), hread, ih]

theorem length_flatMap_encode {size : Nat} {encode : β → Bytes}
    (hsize : ∀ x, (encode x).length = size) (xs : List β) :
    (xs.flatMap encode).length = xs.length * size := by
  rw [List.length_flatMap]
  simp [hsize]

end Records

end RuntimeEnforcer.Lib
