import RuntimeEnforcer.Imagescan.Classify

/-!
# What the dynamic segment says

`isPIE` on any bytes: when it fails, and what it answers when it does not (`isPIE_error_iff`,
`isPIE_ok`). The entries themselves are numbers, written in four bytes or in eight and in either
order; `Entry.encode` writes them, in two's complement, without a word about how the scan reads
them. An entry that fits in the smaller class is read as the same one from all four
(`decodeEntries_encode`), and so the answer is the same.
-/

set_option autoImplicit false

namespace RuntimeEnforcer.Imagescan

open Lib
open Malformed (errMalformed)

/-! ## The loop over the entries -/

/-- The `DT_FLAGS_1` entries before the first `DT_NULL`. -/
def flags1Entries (entries : List Dyn64) : List Dyn64 :=
  (entries.takeWhile fun d => d.tag ≠ dtNull).filter fun d => d.tag = dtFlags1

section Loop

variable {d : Dyn64} {entries : List Dyn64} {flags1 : UInt64} {found : Bool}

theorem flags1Entries_null (h : d.tag = dtNull) : flags1Entries (d :: entries) = [] := by
  simp [flags1Entries, h]

theorem flags1Entries_flags1 (hnull : d.tag ≠ dtNull) (h : d.tag = dtFlags1) :
    flags1Entries (d :: entries) = d :: flags1Entries entries := by
  rw [flags1Entries, List.takeWhile_cons_of_pos (by simpa using hnull),
    List.filter_cons_of_pos (by simpa using h)]
  rfl

theorem flags1Entries_other (hnull : d.tag ≠ dtNull) (h : d.tag ≠ dtFlags1) :
    flags1Entries (d :: entries) = flags1Entries entries := by
  rw [flags1Entries, List.takeWhile_cons_of_pos (by simpa using hnull),
    List.filter_cons_of_neg (by simpa using h)]
  rfl

theorem isPIELoop_null (h : d.tag = dtNull) :
    isPIELoop (d :: entries) flags1 found = .ok (decide (flags1 &&& df1PIE ≠ 0)) := by
  rw [isPIELoop, if_pos h]

theorem isPIELoop_flags1 (hnull : d.tag ≠ dtNull) (h : d.tag = dtFlags1) :
    isPIELoop (d :: entries) flags1 found =
      if found then .error errMalformed else isPIELoop entries d.val true := by
  rw [isPIELoop, if_neg hnull, if_pos h]

theorem isPIELoop_other (hnull : d.tag ≠ dtNull) (h : d.tag ≠ dtFlags1) :
    isPIELoop (d :: entries) flags1 found = isPIELoop entries flags1 found := by
  rw [isPIELoop, if_neg hnull, if_neg h]

theorem isPIELoop_error_iff :
    isPIELoop entries flags1 found = .error errMalformed ↔
      (∀ d ∈ entries, d.tag ≠ dtNull) ∨ 2 ≤ found.toNat + (flags1Entries entries).length := by
  induction entries generalizing flags1 found with
  | nil => simp [isPIELoop]
  | cons d entries ih =>
    rw [List.forall_mem_cons]
    by_cases hnull : d.tag = dtNull
    · have hfound : found.toNat < 2 := by cases found <;> decide
      rw [isPIELoop_null hnull, flags1Entries_null hnull]
      refine iff_of_false (by simp) ?_
      rintro (⟨hne, -⟩ | hle)
      · exact hne hnull
      · exact absurd hle (by simpa using hfound)
    by_cases hflags : d.tag = dtFlags1
    · rw [isPIELoop_flags1 hnull hflags, flags1Entries_flags1 hnull hflags, List.length_cons]
      cases found with
      | true => exact iff_of_true rfl (.inr (by rw [Bool.toNat_true]; omega))
      | false =>
        have hcount : false.toNat + ((flags1Entries entries).length + 1) =
            true.toNat + (flags1Entries entries).length := by
          rw [Bool.toNat_true, Bool.toNat_false]
          omega
        rw [hcount, and_iff_right hnull]
        exact ih
    · rw [isPIELoop_other hnull hflags, flags1Entries_other hnull hflags, and_iff_right hnull]
      exact ih

theorem isPIELoop_ok {pie : Bool} (h : isPIELoop entries flags1 found = .ok pie) :
    pie = decide ((flags1Entries entries).foldl (fun _ d => d.val) flags1 &&& df1PIE ≠ 0) := by
  induction entries generalizing flags1 found with
  | nil => cases h
  | cons d entries ih =>
    by_cases hnull : d.tag = dtNull
    · rw [isPIELoop_null hnull] at h
      rw [flags1Entries_null hnull]
      exact (Except.ok.inj h).symm
    by_cases hflags : d.tag = dtFlags1
    · rw [isPIELoop_flags1 hnull hflags] at h
      rw [flags1Entries_flags1 hnull hflags, List.foldl_cons]
      cases found with
      | true => cases h
      | false => exact ih h
    · rw [isPIELoop_other hnull hflags] at h
      rw [flags1Entries_other hnull hflags]
      exact ih h

theorem isPIELoop_true_iff {pie : Bool} (h : isPIELoop entries 0 false = .ok pie) :
    pie = true ↔ ∃ d ∈ flags1Entries entries, d.val &&& df1PIE ≠ 0 := by
  have hone : (flags1Entries entries).length < 2 := by
    by_contra hmany
    have herror : isPIELoop entries 0 false = .error errMalformed :=
      isPIELoop_error_iff.mpr (.inr (by rw [Bool.toNat_false]; omega))
    rw [herror] at h
    cases h
  rw [isPIELoop_ok h, decide_eq_true_iff]
  match hflags : flags1Entries entries with
  | [] => simp
  | [d] => simp
  | _ :: _ :: _ =>
    rw [hflags, List.length_cons, List.length_cons] at hone
    omega

end Loop

/-! ## The segment -/

/-- The entries that the bytes of the segment are. -/
def File.entries (f : File) (p : Prog) : List Dyn64 :=
  decodeEntries f.elfClass f.byteOrder (p.filesz.toNat / f.elfClass.entrySize)
    ((f.data.drop p.off.toNat).take p.filesz.toNat)

section Segment

variable {f : File} {p : Prog}

theorem decodeEntries_zero (c : Class) (o : ByteOrder) (data : Bytes) :
    decodeEntries c o 0 data = [] := by
  cases c with
  | class32 => rfl
  | class64 => rfl

theorem File.entries_of_empty (h : p.filesz.toNat = 0) : f.entries p = [] := by
  rw [File.entries, h, Nat.zero_div, decodeEntries_zero]

theorem readDynamic_ok (hsize : p.filesz.toNat ≤ maxDynamicSize)
    (hmul : p.filesz.toNat % f.elfClass.entrySize = 0)
    (hlong : p.filesz.toNat = 0 ∨ p.off.toNat + p.filesz.toNat ≤ f.data.length) :
    readDynamic f p = .ok (f.entries p) := by
  have hread : f.readFull p p.filesz.toNat =
      some ((f.data.drop p.off.toNat).take p.filesz.toNat) := by
    unfold File.readFull
    by_cases hzero : p.filesz.toNat = 0
    · rw [if_pos hzero, hzero, List.take_zero]
    · rw [if_neg hzero, if_neg (Nat.not_lt.mpr (hlong.resolve_left hzero))]
  unfold readDynamic
  rw [if_neg (Nat.not_lt.mpr hsize)]
  dsimp only
  rw [if_neg (not_not.mpr hmul), hread]
  rfl

theorem readDynamic_error
    (h : maxDynamicSize < p.filesz.toNat ∨ p.filesz.toNat % f.elfClass.entrySize ≠ 0 ∨
      (p.filesz.toNat ≠ 0 ∧ f.data.length < p.off.toNat + p.filesz.toNat)) :
    readDynamic f p = .error errMalformed := by
  unfold readDynamic
  dsimp only
  by_cases hsize : p.filesz.toNat > maxDynamicSize
  · rw [if_pos hsize]
  rw [if_neg hsize]
  by_cases hmul : p.filesz.toNat % f.elfClass.entrySize ≠ 0
  · rw [if_pos hmul]
  obtain ⟨hzero, hshort⟩ := (h.resolve_left hsize).resolve_left hmul
  rw [if_neg hmul, File.readFull, if_neg hzero, if_pos hshort]

variable (hp : f.dynamic = some p)

include hp

theorem isPIE_eq {entries : List Dyn64} (h : readDynamic f p = .ok entries) :
    isPIE f = isPIELoop entries 0 false := by
  rw [isPIE, hp]
  dsimp only
  rw [h]

theorem isPIE_eq_error (h : readDynamic f p = .error errMalformed) :
    isPIE f = .error errMalformed := by
  rw [isPIE, hp]
  dsimp only
  rw [h]

theorem isPIE_error_iff :
    isPIE f = .error errMalformed ↔
      maxDynamicSize < p.filesz.toNat ∨ p.filesz.toNat % f.elfClass.entrySize ≠ 0 ∨
      f.data.length < p.off.toNat + p.filesz.toNat ∨
      (∀ d ∈ f.entries p, d.tag ≠ dtNull) ∨ 2 ≤ (flags1Entries (f.entries p)).length := by
  by_cases hsize : maxDynamicSize < p.filesz.toNat
  · exact iff_of_true (isPIE_eq_error hp (readDynamic_error (.inl hsize))) (.inl hsize)
  by_cases hmul : p.filesz.toNat % f.elfClass.entrySize = 0
  case neg =>
    exact iff_of_true (isPIE_eq_error hp (readDynamic_error (.inr (.inl hmul)))) (.inr (.inl hmul))
  by_cases hshort : p.filesz.toNat ≠ 0 ∧ f.data.length < p.off.toNat + p.filesz.toNat
  · exact iff_of_true (isPIE_eq_error hp (readDynamic_error (.inr (.inr hshort))))
      (.inr (.inr (.inl hshort.2)))
  have hlong : p.filesz.toNat = 0 ∨ p.off.toNat + p.filesz.toNat ≤ f.data.length := by
    rw [not_and_or, not_not, Nat.not_lt] at hshort
    exact hshort
  rw [isPIE_eq hp (readDynamic_ok (Nat.not_lt.mp hsize) hmul hlong), isPIELoop_error_iff,
    Bool.toNat_false, Nat.zero_add]
  constructor
  · exact fun h => .inr (.inr (.inr h))
  · rintro (h | h | h | h)
    · exact absurd h hsize
    · exact absurd hmul h
    · -- a segment that is read although the file ends before it is empty
      have hzero := hlong.resolve_right (Nat.not_le.mpr h)
      rw [File.entries_of_empty hzero]
      exact .inl fun d hd => absurd hd (by simp)
    · exact h

theorem isPIE_ok {pie : Bool} (h : isPIE f = .ok pie) :
    pie = true ↔ ∃ d ∈ flags1Entries (f.entries p), d.val &&& df1PIE ≠ 0 := by
  have hfine : ¬ isPIE f = .error errMalformed := by rw [h]; exact nofun
  rw [isPIE_error_iff hp] at hfine
  obtain ⟨hsize, hrest⟩ := not_or.mp hfine
  obtain ⟨hmul, hrest⟩ := not_or.mp hrest
  have hlong := Nat.not_lt.mp (not_or.mp hrest).1
  rw [isPIE_eq hp (readDynamic_ok (Nat.not_lt.mp hsize) (not_not.mp hmul) (.inr hlong))] at h
  exact isPIELoop_true_iff h

end Segment

/-! ## Four encodings -/

/-- An entry that fits in either class. -/
structure Entry where
  tag : Int
  val : Nat
  tag_ge : -2 ^ 31 ≤ tag
  tag_lt : tag < 2 ^ 31
  val_lt : val < 2 ^ 32

def Class.width : Class → Nat
  | .class32 => 4
  | .class64 => 8

/-- The entry in the bytes of a class and an order, with the tag in two's complement. -/
def Entry.encode (c : Class) (o : ByteOrder) (e : Entry) : Bytes :=
  o.put c.width (e.tag % (256 ^ c.width : Nat)).toNat ++ o.put c.width e.val

def Entry.dyn (e : Entry) : Dyn64 := ⟨Int64.ofInt e.tag, UInt64.ofNat e.val⟩

section Encodings

variable (c : Class) (o : ByteOrder) (e : Entry)

theorem Entry.length_encode : (e.encode c o).length = c.entrySize := by
  rw [Entry.encode, List.length_append, ByteOrder.length_put, ByteOrder.length_put]
  cases c with
  | class32 => rfl
  | class64 => rfl

theorem Entry.uint_encode :
    o.uint ((e.encode c o).take c.width) = (e.tag % (256 ^ c.width : Nat)).toNat ∧
      o.uint ((e.encode c o).drop c.width) = e.val := by
  have hpos : (0 : Int) < (256 ^ c.width : Nat) := by
    exact_mod_cast Nat.pow_pos (by decide)
  have htag : (e.tag % (256 ^ c.width : Nat)).toNat < 256 ^ c.width := by
    have hlt := Int.emod_lt_of_pos e.tag hpos
    omega
  have hval : e.val < 256 ^ c.width := by
    refine Nat.lt_of_lt_of_le e.val_lt ?_
    cases c with
    | class32 => decide
    | class64 => decide
  rw [Entry.encode, List.take_left' (ByteOrder.length_put _ _ _),
    List.drop_left' (ByteOrder.length_put _ _ _), ByteOrder.uint_put, ByteOrder.uint_put,
    Nat.mod_eq_of_lt htag, Nat.mod_eq_of_lt hval]
  exact ⟨rfl, rfl⟩

theorem decodeDyn64_encode : decodeDyn64 o (e.encode .class64 o) = e.dyn := by
  obtain ⟨htag, hval⟩ := e.uint_encode .class64 o
  have hword : Int64.ofNat (e.tag % (256 ^ 8 : Nat)).toNat = Int64.ofInt e.tag := by
    apply Int64.toInt_inj.mp
    rw [← Int64.ofInt_eq_ofNat, Int64.toInt_ofInt, Int64.toInt_ofInt,
      Int.toNat_of_nonneg (Int.emod_nonneg _ (by decide))]
    exact Int.emod_bmod e.tag Int64.size
  rw [decodeDyn64, Entry.dyn]
  rw [Class.width] at htag hval
  rw [htag, hval, hword]

theorem decodeDyn32_encode : (decodeDyn32 o (e.encode .class32 o)).widen = e.dyn := by
  obtain ⟨htag, hval⟩ := e.uint_encode .class32 o
  have hword : (Int32.ofNat (e.tag % (256 ^ 4 : Nat)).toNat).toInt64 = Int64.ofInt e.tag := by
    have hge := e.tag_ge
    have hlt := e.tag_lt
    apply Int64.toInt_inj.mp
    rw [Int32.toInt_toInt64, ← Int32.ofInt_eq_ofNat, Int32.toInt_ofInt, Int64.toInt_ofInt,
      Int.toNat_of_nonneg (Int.emod_nonneg _ (by decide))]
    have hsmall : (e.tag % (256 ^ 4 : Nat)).bmod Int32.size = e.tag.bmod Int32.size :=
      Int.emod_bmod e.tag Int32.size
    rw [hsmall, Int.bmod_eq_of_le, Int.bmod_eq_of_le]
    all_goals simp only [Int32.size, Int64.size]; omega
  rw [decodeDyn32, Dyn32.widen, Entry.dyn]
  rw [Class.width] at htag hval
  dsimp only
  rw [htag, hval, hword, UInt32.toUInt64_ofNat' e.val_lt]

/-- **Every encoding of a list of entries is read as the list.** -/
theorem decodeEntries_encode (entries : List Entry) :
    decodeEntries c o entries.length (entries.flatMap (Entry.encode c o)) =
      entries.map Entry.dyn := by
  cases c with
  | class64 =>
    exact decodeSlice_flatMap (Entry.length_encode .class64 o) (decodeDyn64_encode o) entries
  | class32 =>
    show (decodeSlice _ (decodeDyn32 o) _ _).map Dyn32.widen = _
    rw [decodeSlice_flatMap (Entry.length_encode .class32 o) (fun _ => rfl), List.map_map]
    exact List.map_congr_left fun e _ => decodeDyn32_encode o e

end Encodings

/-- The dynamic segment of the file is the list of entries, in the file's class and order. -/
structure Stores (f : File) (p : Prog) (entries : List Entry) : Prop where
  dynamic : f.dynamic = some p
  size : p.filesz.toNat = (entries.flatMap (Entry.encode f.elfClass f.byteOrder)).length
  bytes : (f.data.drop p.off.toNat).take p.filesz.toNat =
    entries.flatMap (Entry.encode f.elfClass f.byteOrder)

theorem Stores.isPIE_eq {f : File} {p : Prog} {entries : List Entry} (h : Stores f p entries)
    (hsize : p.filesz.toNat ≤ maxDynamicSize) :
    isPIE f = isPIELoop (entries.map Entry.dyn) 0 false := by
  have hcount : p.filesz.toNat = entries.length * f.elfClass.entrySize := by
    rw [h.size, length_flatMap_encode (Entry.length_encode f.elfClass f.byteOrder)]
  have hpos : 0 < f.elfClass.entrySize := by
    cases f.elfClass with
    | class32 => decide
    | class64 => decide
  have hlong : p.filesz.toNat = 0 ∨ p.off.toNat + p.filesz.toNat ≤ f.data.length := by
    have hlength := congrArg List.length h.bytes
    rw [← h.size, List.length_take, List.length_drop] at hlength
    omega
  have hread : f.entries p = entries.map Entry.dyn := by
    rw [File.entries, h.bytes, hcount, Nat.mul_div_cancel _ hpos]
    exact decodeEntries_encode f.elfClass f.byteOrder entries
  have hmul : p.filesz.toNat % f.elfClass.entrySize = 0 := by rw [hcount, Nat.mul_mod_left]
  rw [Imagescan.isPIE_eq h.dynamic (readDynamic_ok hsize hmul hlong), hread]

/-- `isPIE` on every file with a dynamic segment, and on every list of entries in any two
encodings. -/
theorem isPIE_exact :
    (∀ f p, f.dynamic = some p →
      (isPIE f = .error errMalformed ↔
        maxDynamicSize < p.filesz.toNat ∨ p.filesz.toNat % f.elfClass.entrySize ≠ 0 ∨
        f.data.length < p.off.toNat + p.filesz.toNat ∨
        (∀ d ∈ f.entries p, d.tag ≠ dtNull) ∨ 2 ≤ (flags1Entries (f.entries p)).length) ∧
      ∀ pie, isPIE f = .ok pie →
        (pie = true ↔ ∃ d ∈ flags1Entries (f.entries p), d.val &&& df1PIE ≠ 0)) ∧
    ∀ entries f p f' p', Stores f p entries → Stores f' p' entries →
      p.filesz.toNat ≤ maxDynamicSize → p'.filesz.toNat ≤ maxDynamicSize →
      isPIE f = isPIE f' := by
  refine ⟨fun f p hp => ⟨isPIE_error_iff hp, fun pie => isPIE_ok hp⟩, ?_⟩
  intro entries f p f' p' h h' hsize hsize'
  rw [h.isPIE_eq hsize, h'.isPIE_eq hsize']

namespace Sample

/-- `DT_FLAGS_1` with `DF_1_PIE`, a tag of a negative number, and `DT_NULL`. -/
def entries : List Entry :=
  [⟨0x6ffffffb, 0x08000000, by decide, by decide, by decide⟩,
    ⟨-2, 7, by decide, by decide, by decide⟩, ⟨0, 0, by decide, by decide, by decide⟩]

def segment (c : Class) : Prog := ⟨ptDynamic, 1, UInt64.ofNat (entries.length * c.entrySize)⟩

def file (c : Class) (o : ByteOrder) : File where
  elfClass := c
  byteOrder := o
  type := etDyn
  progs := [⟨1, 0, 0⟩, segment c]
  data := 0 :: entries.flatMap (Entry.encode c o)

theorem file_stores (c : Class) (o : ByteOrder) : Stores (file c o) (segment c) entries := by
  cases c <;> cases o <;> exact ⟨rfl, by decide +kernel, by decide +kernel⟩

theorem isPIE_exact_encodings :
    isPIE (file .class32 .big) = isPIE (file .class64 .little) ∧
      isPIE (file .class32 .big) = .ok true ∧
      ∃ d ∈ flags1Entries ((file .class32 .big).entries (segment .class32)),
        d.val &&& df1PIE ≠ 0 := by
  have hpie : isPIE (file .class32 .big) = .ok true := by decide +kernel
  refine ⟨?_, hpie, ?_⟩
  · exact isPIE_exact.2 entries _ _ _ _ (file_stores .class32 .big) (file_stores .class64 .little)
      (by decide +kernel) (by decide +kernel)
  · exact ((isPIE_exact.1 _ _ (file_stores .class32 .big).dynamic).2 true hpie).mp rfl

end Sample

/-! ## Libraries -/

theorem classifyELF_library_iff {parsed : Parsed} :
    classifyELF parsed = .library ↔
      ∃ f, parsed = .file f ∧ f.type = etDyn ∧ (∀ p ∈ f.progs, p.type ≠ ptInterp) ∧
        isPIE f = .ok false := by
  cases parsed with
  | panics => simp [classifyELF]
  | fails => simp [classifyELF]
  | file f =>
    have hany : (f.progs.any fun p => p.type = ptInterp) = true ↔
        ¬ ∀ p ∈ f.progs, p.type ≠ ptInterp := by simp
    simp only [classifyELF, hany, Parsed.file.injEq, exists_eq_left']
    by_cases hdyn : f.type = etDyn
    · have hkind : ¬ (f.type = etNone ∨ f.type = etRel ∨ f.type = etCore) := by
        rw [hdyn]
        decide
      rw [if_neg hkind, if_neg (not_not.mpr hdyn)]
      by_cases hinterp : ∀ p ∈ f.progs, p.type ≠ ptInterp
      · rw [if_neg (not_not.mpr hinterp)]
        cases hpie : isPIE f with
        | error e => simp
        | ok pie =>
          cases pie with
          | true => simp
          | false => exact iff_of_true rfl ⟨hdyn, hinterp, rfl⟩
      · rw [if_pos hinterp]
        simp [hinterp]
    · split
      · simp [hdyn]
      · simp [hdyn]

/-- **A file that is left out as a library** is an ELF file of type `ET_DYN` that names no
interpreter, and if it has a dynamic segment then one that can be read and does not set the flag. -/
theorem classify_library {ε : Type} {head : Except ε Bytes} {readerAt : Option Parsed}
    (h : classify head readerAt = .ok .library) :
    head = .ok elfMag ∧ ∃ f, readerAt = some (.file f) ∧ f.type = etDyn ∧
      (∀ p ∈ f.progs, p.type ≠ ptInterp) ∧
      ∀ p, f.dynamic = some p →
        (∃ d ∈ f.entries p, d.tag = dtNull) ∧
        ∀ d ∈ flags1Entries (f.entries p), d.val &&& df1PIE = 0 := by
  unfold classify at h
  cases head with
  | error e => cases h
  | ok head =>
    dsimp only at h
    split at h
    · cases h
    split at h
    · cases h
    · next hmag =>
      cases readerAt with
      | none => cases h
      | some parsed =>
        obtain ⟨f, rfl, hdyn, hinterp, hpie⟩ := classifyELF_library_iff.mp (Except.ok.inj h)
        refine ⟨congrArg Except.ok (not_not.mp hmag), f, rfl, hdyn, hinterp, fun p hp => ⟨?_, ?_⟩⟩
        · by_contra hnull
          have herror : isPIE f = .error errMalformed := (isPIE_error_iff hp).mpr
            (.inr (.inr (.inr (.inl fun d hd heq => hnull ⟨d, hd, heq⟩))))
          rw [hpie] at herror
          cases herror
        · intro d hd
          by_contra hflag
          have htrue := (isPIE_ok hp hpie).mpr ⟨d, hd, hflag⟩
          cases htrue

end RuntimeEnforcer.Imagescan
