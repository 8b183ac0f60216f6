import RuntimeEnforcer.Imagescan.Elfutil
import RuntimeEnforcer.Lib.Fallible

/-!
# The name table is found in every ELF file

The specification of ELF says where a file has its section headers, and in which field of which one
the table of the section names declares its size: in either class and byte order, and with the
numbers of sections in the file header or, where they do not fit, in the first section header.
`Laid` says that a file is laid out so; then the check reads the size that is declared there, and
refuses the file if and only if it is over the limit.
-/

set_option autoImplicit false

namespace RuntimeEnforcer.Elfutil

open Lib Imagescan

/-! ## The layout -/

def FitIn (widths values : List Nat) : Prop := ∀ f ∈ widths.zip values, f.2 < 256 ^ f.1

structure Ehdr where
  type : Nat
  machine : Nat
  version : Nat
  entry : Nat
  phoff : Nat
  shoff : Nat
  flags : Nat
  ehsize : Nat
  phentsize : Nat
  phnum : Nat
  shentsize : Nat
  shnum : Nat
  shstrndx : Nat

def Ehdr.fields (h : Ehdr) : List Nat :=
  [h.type, h.machine, h.version, h.entry, h.phoff, h.shoff, h.flags, h.ehsize, h.phentsize, h.phnum,
    h.shentsize, h.shnum, h.shstrndx]

structure Shdr where
  name : Nat
  type : Nat
  flags : Nat
  addr : Nat
  off : Nat
  size : Nat
  link : Nat
  info : Nat
  addralign : Nat
  entsize : Nat

def Shdr.fields (s : Shdr) : List Nat :=
  [s.name, s.type, s.flags, s.addr, s.off, s.size, s.link, s.info, s.addralign, s.entsize]

structure Chdr where
  type : Nat
  reserved : Nat
  size : Nat
  addralign : Nat

def Chdr.record (ch : Chdr) : Imagescan.Class → List (Nat × Nat)
  | .class32 => [(4, ch.type), (4, ch.size), (4, ch.addralign)]
  | .class64 => [(4, ch.type), (4, ch.reserved), (8, ch.size), (8, ch.addralign)]

def classByte : Imagescan.Class → UInt8
  | .class32 => 1
  | .class64 => 2

def dataByte : ByteOrder → UInt8
  | .little => 1
  | .big => 2

/-- An ELF file, as far as its sections are concerned. -/
structure Elf where
  elfClass : Imagescan.Class
  byteOrder : ByteOrder
  ident : Bytes
  header : Ehdr
  sections : List Shdr

namespace Elf

def identification (e : Elf) : Bytes :=
  elfMag ++ [classByte e.elfClass, dataByte e.byteOrder] ++ e.ident

def headerBytes (e : Elf) : Bytes :=
  e.identification ++
    e.byteOrder.putFields ((headerWidths e.elfClass).tail.zip e.header.fields)

def sectionBytes (e : Elf) (s : Shdr) : Bytes :=
  e.byteOrder.putFields ((sectionWidths e.elfClass).zip s.fields)

def compressionBytes (e : Elf) (ch : Chdr) : Bytes := e.byteOrder.putFields (ch.record e.elfClass)

end Elf

def shnLORESERVE : Nat := 0xff00

/-- The file `r` is laid out as `e`, and section `names` is the table of the section names. -/
structure Laid (r : Bytes) (e : Elf) (names : Nat) : Prop where
  small : r.length ≤ maxInt64
  ident : e.ident.length = 10
  header : e.headerBytes <+: r
  headerFits : FitIn (headerWidths e.elfClass).tail e.header.fields
  shoff : 0 < e.header.shoff
  shentsize : sectionHeaderSize e.elfClass ≤ e.header.shentsize
  table : ∀ i s, e.sections[i]? = some s →
    e.sectionBytes s <+: r.drop (e.header.shoff + i * e.header.shentsize) ∧
      FitIn (sectionWidths e.elfClass) s.fields
  named : 0 < names ∧ names < e.sections.length
  /-- The numbers are in the header if they are below `SHN_LORESERVE`, and else in section 0. -/
  shnum : e.header.shnum = if e.sections.length < shnLORESERVE then e.sections.length else 0
  shstrndx : e.header.shstrndx = if names < shnLORESERVE then names else shnXINDEX
  first : ∀ s, e.sections[0]? = some s →
    (shnLORESERVE ≤ e.sections.length → s.size = e.sections.length) ∧
      (shnLORESERVE ≤ names → s.link = names)

/-! ## Reading -/

theorem int64_of_le {n : Nat} (h : n ≤ maxInt64) : int64 n = n := by
  unfold int64
  unfold maxInt64 at h
  exact Int.bmod_eq_of_le (by omega) (by omega)

theorem entryOffset_of_le {shoff shentsize i : Nat} (hpos : 0 < shentsize)
    (hle : shoff + i * shentsize ≤ maxInt64) :
    entryOffset shoff shentsize i = some ((shoff + i * shentsize : Nat) : Int) := by
  have hmul : i ≤ maxInt64 / shentsize := (Nat.le_div_iff_mul_le hpos).mpr (by omega)
  have hsum : (shoff : Int) + (i : Int) * shentsize = ((shoff + i * shentsize : Nat) : Int) := by
    push_cast
    rfl
  unfold entryOffset
  rw [if_neg (by omega)]
  simp only [hsum, int64_of_le hle]
  rw [if_neg (by omega)]

section

variable {r bs : Bytes} {o : ByteOrder} {c : Imagescan.Class} {off : Nat}

theorem readFull_of_prefix (h : bs <+: r.drop off) (hne : 0 < bs.length) :
    readFull r off bs.length = some bs := by
  have hlen : bs.length ≤ (r.drop off).length := h.length_le
  rw [List.length_drop] at hlen
  unfold readFull
  rw [if_neg (by simp; omega), Int.toNat_natCast, List.prefix_iff_eq_take.mp h]
  simp

theorem readRecord_of_prefix {fs : List (Nat × Nat)} (h : o.putFields fs <+: r.drop off)
    (hfits : ∀ f ∈ fs, f.2 < 256 ^ f.1) (hne : 0 < (fs.map Prod.fst).sum) :
    readRecord r o off (fs.map Prod.fst) = some (fs.map Prod.snd) := by
  have hlen := o.length_putFields fs
  unfold readRecord
  rw [← hlen, readFull_of_prefix h (by omega), Option.map_some, ByteOrder.fields_putFields o hfits]

end

namespace Laid

variable {r : Bytes} {e : Elf} {names : Nat}

variable (h : Laid r e names)

include h

theorem length_identification : e.identification.length = 16 := by
  simp [Elf.identification, elfMag, h.ident]

theorem identify : identify r = some (e.elfClass, e.byteOrder) := by
  have hprefix : e.identification <+: r.drop 0 := by
    rw [List.drop_zero]
    exact (List.prefix_append _ _).trans h.header
  have hread : readFull r 0 e.identification.length = some e.identification :=
    readFull_of_prefix hprefix (by rw [h.length_identification]; omega)
  rw [h.length_identification] at hread
  unfold Elfutil.identify
  rw [hread]
  cases hc : e.elfClass <;> cases ho : e.byteOrder <;>
    simp [Elf.identification, hc, ho, classByte, dataByte, elfMag]

theorem readSectionHeader {i : Nat} {s : Shdr} (hs : e.sections[i]? = some s) :
    readSectionHeader r e.elfClass e.byteOrder
        ((e.header.shoff + i * e.header.shentsize : Nat) : Int)
      = some { flags := s.flags, offset := int64 s.off, size := s.size, link := s.link } := by
  obtain ⟨hat, hfits⟩ := h.table i s hs
  have hfst : ((sectionWidths e.elfClass).zip s.fields).map Prod.fst
      = sectionWidths e.elfClass := by
    cases e.elfClass <;> rfl
  have hsnd : ((sectionWidths e.elfClass).zip s.fields).map Prod.snd = s.fields := by
    cases e.elfClass <;> rfl
  have hread := readRecord_of_prefix hat hfits (by rw [hfst]; cases e.elfClass <;> decide)
  rw [hfst, hsnd] at hread
  unfold Elfutil.readSectionHeader
  rw [hread]
  rfl

theorem end_le {i : Nat} {s : Shdr} (hs : e.sections[i]? = some s) :
    e.header.shoff + i * e.header.shentsize ≤ maxInt64 := by
  obtain ⟨hat, -⟩ := h.table i s hs
  have hlen : (e.sectionBytes s).length = (sectionWidths e.elfClass).sum := by
    rw [Elf.sectionBytes, ByteOrder.length_putFields]
    cases e.elfClass <;> rfl
  have hpos : 0 < (sectionWidths e.elfClass).sum := by
    cases e.elfClass <;> decide
  have hle := hat.length_le
  rw [hlen, List.length_drop] at hle
  have hsmall := h.small
  omega

theorem exists_first : ∃ s, e.sections[0]? = some s :=
  ⟨_, List.getElem?_eq_getElem (Nat.lt_trans h.named.1 h.named.2)⟩

theorem shoff_le : e.header.shoff ≤ maxInt64 := by
  obtain ⟨s, hs⟩ := h.exists_first
  have hle := h.end_le hs
  omega

theorem fileHeader :
    fileHeader r e.elfClass e.byteOrder = some {
      shoff := e.header.shoff
      shentsize := e.header.shentsize
      shnum := e.header.shnum
      shstrndx := e.header.shstrndx } := by
  have hwidths : headerWidths e.elfClass = 16 :: (headerWidths e.elfClass).tail := by
    cases e.elfClass <;> rfl
  have hfst : ((headerWidths e.elfClass).tail.zip e.header.fields).map Prod.fst
      = (headerWidths e.elfClass).tail := by
    cases e.elfClass <;> rfl
  have hsnd : ((headerWidths e.elfClass).tail.zip e.header.fields).map Prod.snd
      = e.header.fields := by
    cases e.elfClass <;> rfl
  have hlen : e.headerBytes.length = (headerWidths e.elfClass).sum := by
    rw [hwidths, List.sum_cons, Elf.headerBytes, List.length_append, h.length_identification,
      ByteOrder.length_putFields, hfst]
  have hprefix : e.headerBytes <+: r.drop 0 := by
    rw [List.drop_zero]
    exact h.header
  have hread : readFull r 0 e.headerBytes.length = some e.headerBytes :=
    readFull_of_prefix hprefix (by rw [hlen, hwidths, List.sum_cons]; omega)
  rw [hlen] at hread
  have hfields := ByteOrder.fields_putFields e.byteOrder h.headerFits
  rw [hfst, hsnd] at hfields
  unfold Elfutil.fileHeader readRecord
  rw [hread, hwidths, Option.map_some, ByteOrder.fields, Elf.headerBytes,
    List.drop_left' h.length_identification, hfields]
  simp only [Ehdr.fields, Option.bind_eq_bind, Option.bind_some, int64_of_le h.shoff_le]

theorem numbering :
    numbering r e.elfClass e.byteOrder {
      shoff := e.header.shoff
      shentsize := e.header.shentsize
      shnum := e.header.shnum
      shstrndx := e.header.shstrndx } = some (e.sections.length, names) := by
  have hnames := h.named
  unfold Elfutil.numbering
  by_cases hmany : e.sections.length < shnLORESERVE
  · have hshnum : e.header.shnum = e.sections.length := h.shnum.trans (if_pos hmany)
    have hshstrndx : e.header.shstrndx = names := h.shstrndx.trans (if_pos (by omega))
    simp only [hshnum, hshstrndx]
    rw [if_neg (by omega)]
  · have hshnum : e.header.shnum = 0 := h.shnum.trans (if_neg hmany)
    obtain ⟨s, hs⟩ := h.exists_first
    obtain ⟨hsize, hlink⟩ := h.first s hs
    have hread := h.readSectionHeader hs
    rw [Nat.zero_mul, Nat.add_zero] at hread
    simp only [hshnum]
    rw [if_pos trivial, hread]
    simp only [Option.bind_eq_bind, Option.bind_some, hsize (by omega)]
    by_cases hfar : names < shnLORESERVE
    · have hne : names ≠ shnXINDEX := by
        unfold shnLORESERVE at hfar
        unfold shnXINDEX
        omega
      rw [h.shstrndx.trans (if_pos hfar), if_neg hne]
    · rw [h.shstrndx.trans (if_neg hfar), if_pos rfl, hlink (by omega)]

theorem sectionNameTableHeader {s : Shdr} (hs : e.sections[names]? = some s) :
    sectionNameTableHeader r e.elfClass e.byteOrder
      = some { flags := s.flags, offset := int64 s.off, size := s.size, link := s.link } := by
  have hnames := h.named
  have hle := h.end_le hs
  have hshoff := h.shoff
  have hshentsize := h.shentsize
  have hpos : 0 < sectionHeaderSize e.elfClass := by
    cases e.elfClass <;> decide
  unfold Elfutil.sectionNameTableHeader
  rw [h.fileHeader]
  simp only [Option.bind_eq_bind, Option.bind_some, h.numbering]
  rw [if_neg (by omega), if_neg (by omega), entryOffset_of_le (by omega) hle]
  exact h.readSectionHeader hs

theorem compressedSize {off : Nat} {ch : Chdr} (hat : e.compressionBytes ch <+: r.drop off)
    (hfits : ∀ f ∈ ch.record e.elfClass, f.2 < 256 ^ f.1) :
    compressedSize r e.elfClass e.byteOrder (int64 off) = some ch.size := by
  have hpos : 0 < ((ch.record e.elfClass).map Prod.fst).sum := by
    cases e.elfClass <;> simp [Chdr.record]
  have hle := hat.length_le
  rw [Elf.compressionBytes, ByteOrder.length_putFields, List.length_drop] at hle
  have hsmall := h.small
  have hread := readRecord_of_prefix hat hfits hpos
  unfold Elfutil.compressedSize
  rw [int64_of_le (by omega), if_neg (by omega)]
  cases hc : e.elfClass with
  | class32 =>
    simp only [hc, Chdr.record, List.map_cons, List.map_nil] at hread
    simp only [hread]
    rfl
  | class64 =>
    simp only [hc, Chdr.record, List.map_cons, List.map_nil] at hread
    simp only [hread]
    rfl

end Laid

/-- What a section declares as its decompressed size, by the specification. -/
inductive Declares (r : Bytes) (e : Elf) (s : Shdr) : Option Nat → Prop
  | plain : s.flags &&& shfCompressed = 0 → Declares r e s none
  | compressed (ch : Chdr) : s.flags &&& shfCompressed ≠ 0 →
      (∀ f ∈ ch.record e.elfClass, f.2 < 256 ^ f.1) → e.compressionBytes ch <+: r.drop s.off →
      Declares r e s (some ch.size)

/-- **The name table is bounded in every ELF file.** Of either class, in either byte order, and
wherever the number of its sections is kept, a file is refused if and only if its table of section
names declares more than the limit, and the error says how much. -/
theorem checkSectionNameTable_exact {r : Bytes} {e : Elf} {names : Nat} {s : Shdr}
    {declared : Option Nat} (h : Laid r e names) (hs : e.sections[names]? = some s)
    (hd : Declares r e s declared) :
    checkSectionNameTable r = match declared with
      | some size => if size ≤ maxDeclaredSectionSize then .ok () else .error (.nameTable size)
      | none => .ok () := by
  have hsize : nameTableSize r = declared := by
    unfold nameTableSize
    rw [h.identify]
    simp only [Option.bind_eq_bind, Option.bind_some]
    rw [h.sectionNameTableHeader hs]
    simp only [Option.bind_some]
    cases hd with
    | plain hflags => rw [if_pos hflags]
    | compressed ch hflags hfits hat => rw [if_neg hflags, h.compressedSize hat hfits]
  unfold checkSectionNameTable
  rw [hsize]
  cases declared with
  | none => rfl
  | some size =>
    by_cases hle : size ≤ maxDeclaredSectionSize
    · simp only [if_pos hle, if_neg (Nat.not_lt.mpr hle)]
    · simp only [if_neg hle, if_pos (Nat.lt_of_not_le hle)]

namespace Sample

/-- A big-endian file of two sections, whose name table declares half a gibibyte. -/
def bomb : Elf where
  elfClass := .class64
  byteOrder := .big
  ident := List.replicate 10 0
  header := ⟨2, 22, 1, 0, 0, 64, 0, 64, 0, 0, 64, 2, 1⟩
  sections := [⟨0, 0, 0, 0, 0, 0, 0, 0, 0, 0⟩, ⟨1, 3, 0x800, 0, 192, 24, 0, 0, 1, 0⟩]

def bombHeader : Chdr := ⟨1, 0, 512 * mb, 1⟩

def bombBytes : Bytes :=
  bomb.headerBytes ++ bomb.sections.flatMap bomb.sectionBytes ++ bomb.compressionBytes bombHeader

theorem laid_bomb : Laid bombBytes bomb 1 where
  small := by decide +kernel
  ident := rfl
  header := by decide +kernel
  headerFits := by unfold FitIn; decide +kernel
  shoff := by decide
  shentsize := by decide
  table := by
    intro i s hs
    match i with
    | 0 =>
      obtain rfl := Option.some.inj hs
      exact ⟨by decide +kernel, by unfold FitIn; decide +kernel⟩
    | 1 =>
      obtain rfl := Option.some.inj hs
      exact ⟨by decide +kernel, by unfold FitIn; decide +kernel⟩
    | i + 2 => exact absurd hs (by simp [bomb])
  named := by decide
  shnum := by decide
  shstrndx := by decide
  first := by
    intro s hs
    exact ⟨fun h => absurd h (by decide), fun h => absurd h (by decide)⟩

/-- It is refused. -/
theorem checkSectionNameTable_bomb :
    checkSectionNameTable bombBytes = .error (.nameTable (512 * mb)) :=
  checkSectionNameTable_exact laid_bomb rfl
    (.compressed bombHeader (by decide) (by decide +kernel) (by decide +kernel))

end Sample

/-! ## What is expanded after the parse -/

/-- What `Section.Open` of `debug/elf` returns. -/
inductive Reader
  | failing
  | stored
  | expanding (size : Nat)
  deriving DecidableEq, Repr

/-- `Section.Open` of `debug/elf`. Whether the type in a compression header is `known` is not kept
in the section. -/
def Section.opened (s : Section) (known : Bool) : Reader :=
  if s.type = shtNobits then .failing
  else if s.flags &&& shfCompressed = 0 then
    let b := s.content.take 12
    if ¬ zdebugPrefix <+: s.name then .stored
    else if b.length ≠ 12 ∨ b.take 4 ≠ zlibMagic then .stored
    else .expanding (ByteOrder.big.uint (b.drop 4))
  else if s.flags &&& shfAlloc ≠ 0 then .failing
  else if known then .expanding s.size
  else .failing

def sectionByType (sections : List Section) (t : Nat) : Option Nat :=
  sections.findIdx? fun s => s.type = t

def sectionByName (sections : List Section) (name : Bytes) : Option Nat :=
  sections.findIdx? fun s => s.name = name

/-- The sections that the accessors of `debug/elf` and their callers open. -/
inductive Opens (sections : List Section) : Nat → Prop
  | table {t i : Nat} : t ∈ [shtSymtab, shtDynsym, shtDynamic] →
      sectionByType sections t = some i → Opens sections i
  | strings {t i : Nat} {s : Section} : t ∈ [shtSymtab, shtDynsym, shtDynamic] →
      sectionByType sections t = some i → sections[i]? = some s → Opens sections s.link
  | versions {t i : Nat} : t ∈ [shtGnuVersym, shtGnuVerdef, shtGnuVerneed] →
      sectionByType sections t = some i → Opens sections i
  | named {name : Bytes} {i : Nat} : name ∈ sectionsReadByName →
      sectionByName sections name = some i → Opens sections i

/-- Wherever a section is expanded, its declared size is known. -/
theorem declaredSectionSize_of_opened {s : Section} {known : Bool} {size : Nat}
    (h : s.opened known = .expanding size) : declaredSectionSize s = some size := by
  unfold Section.opened at h
  unfold declaredSectionSize
  by_cases hbits : s.type = shtNobits
  · rw [if_pos hbits] at h
    exact absurd h (by simp)
  · rw [if_neg hbits] at h ⊢
    by_cases hflags : s.flags &&& shfCompressed = 0
    · rw [if_pos hflags] at h
      rw [if_neg (not_not.mpr hflags)]
      unfold zdebugDeclaredSize legacyZlibHeaderSize
      split at h
      · exact absurd h (by simp)
      · next hname =>
        rw [if_neg hname]
        simp only at h
        split at h
        · exact absurd h (by simp)
        · next hmagic =>
          simp only [if_neg hmagic]
          exact congrArg some (Reader.expanding.inj h)
    · rw [if_neg hflags] at h
      rw [if_pos hflags]
      unfold chdrDeclaredSize
      split at h
      · exact absurd h (by simp)
      · next halloc =>
        rw [if_neg halloc]
        split at h
        · exact congrArg some (Reader.expanding.inj h)
        · exact absurd h (by simp)

theorem lookup_mark (n : Nat) (is : List Nat) (reach : GoMap Nat Unit) (i : Nat) :
    (is.foldl (fun reach i => if i < n then reach.insert i () else reach) reach).lookup i = some ()
      ↔ reach.lookup i = some () ∨ i ∈ is ∧ i < n := by
  induction is generalizing reach with
  | nil => simp
  | cons j is ih =>
    rw [List.foldl_cons, ih, List.mem_cons]
    by_cases hj : j < n
    · rw [if_pos hj, GoMap.lookup_insert_eq]
      by_cases hij : i = j
      · simp [hij, hj]
      · simp [hij]
    · rw [if_neg hj]
      constructor
      · rintro (h | ⟨h, hi⟩)
        · exact .inl h
        · exact .inr ⟨.inr h, hi⟩
      · rintro (h | ⟨rfl | h, hi⟩)
        · exact .inl h
        · exact absurd hi hj
        · exact .inr ⟨h, hi⟩

theorem lookup_reachableSections (sections : List Section) (i : Nat) :
    (reachableSections sections).lookup i = some () ↔
      (∃ j s, sections[j]? = some s ∧ i ∈ marks j s) ∧ i < sections.length := by
  unfold reachableSections
  rw [lookup_mark, List.mem_flatMap]
  constructor
  · rintro (h | ⟨⟨⟨s, j⟩, hmem, hi⟩, hlt⟩)
    · exact absurd h (by simp)
    · exact ⟨⟨j, s, List.mem_zipIdx_iff_getElem?.mp hmem, hi⟩, hlt⟩
  · rintro ⟨⟨j, s, hs, hi⟩, hlt⟩
    exact .inr ⟨⟨(s, j), List.mem_zipIdx_iff_getElem?.mpr hs, hi⟩, hlt⟩

theorem type_of_sectionByType {sections : List Section} {t i : Nat}
    (h : sectionByType sections t = some i) : ∃ s, sections[i]? = some s ∧ s.type = t := by
  obtain ⟨hlt, htype, -⟩ := List.findIdx?_eq_some_iff_getElem.mp h
  exact ⟨_, List.getElem?_eq_getElem hlt, by simpa using htype⟩

theorem marked_of_opens {sections : List Section} {i : Nat} (h : Opens sections i) :
    ∃ j s, sections[j]? = some s ∧ i ∈ marks j s := by
  cases h with
  | table ht hi =>
    obtain ⟨s, hs, htype⟩ := type_of_sectionByType hi
    refine ⟨i, s, hs, ?_⟩
    rw [← htype] at ht
    simp only [List.mem_cons, List.not_mem_nil, or_false] at ht
    simp [marks, ht]
  | @strings t j s ht hj hs =>
    obtain ⟨s', hs', htype⟩ := type_of_sectionByType hj
    obtain rfl := Option.some.inj (hs.symm.trans hs')
    refine ⟨j, s, hs, ?_⟩
    rw [← htype] at ht
    simp only [List.mem_cons, List.not_mem_nil, or_false] at ht
    simp [marks, ht]
  | versions ht hi =>
    obtain ⟨s, hs, htype⟩ := type_of_sectionByType hi
    refine ⟨i, s, hs, ?_⟩
    rw [← htype] at ht
    simp only [List.mem_cons, List.not_mem_nil, or_false] at ht
    unfold marks
    rw [if_pos ht]
    split
    · simp
    · simp
  | named hname hi =>
    obtain ⟨hlt, heq, -⟩ := List.findIdx?_eq_some_iff_getElem.mp hi
    refine ⟨i, _, List.getElem?_eq_getElem hlt, ?_⟩
    have hmem : sections[i].name ∈ sectionsReadByName := by
      rw [show sections[i].name = _ by simpa using heq]
      exact hname
    simp [marks, hmem]

theorem checkSection_eq_ok {s : Section} :
    checkSection s = .ok () ↔
      ∀ size, declaredSectionSize s = some size → size ≤ maxDeclaredSectionSize := by
  unfold checkSection
  cases declaredSectionSize s with
  | none => simp
  | some size =>
    by_cases h : size > maxDeclaredSectionSize
    · simp [h]
    · simp [h, Nat.le_of_not_lt h]

/-- The check passes if every section in the map is within the limit, in whatever order they are
visited. -/
theorem checkReachableSections_eq_ok (order : Order Nat Unit) {sections : List Section} :
    checkReachableSections order sections = .ok () ↔
      ∀ i s, (reachableSections sections).lookup i = some () → sections[i]? = some s →
        ∀ size, declaredSectionSize s = some size → size ≤ maxDeclaredSectionSize := by
  unfold checkReachableSections
  rw [forM_eq_ok]
  constructor
  · intro h i s hi hs
    have hcheck := h ⟨i, ()⟩ ((order.mem_range 0).mpr hi)
    simp only [hs] at hcheck
    exact checkSection_eq_ok.mp hcheck
  · rintro h ⟨i, u⟩ he
    cases hs : sections[i]? with
    | none => rfl
    | some s => exact checkSection_eq_ok.mpr (h i s ((order.mem_range 0).mp he) hs)

/-- **Nothing that is opened expands past the limit.** If a file is accepted, it is the one that was
parsed, and none of the sections that are opened by type, by name or as the strings of another is
expanded to more bytes than the limit. Whether it is accepted does not depend on the order in which
the sections are visited. -/
theorem newFile_bounded (order : Order Nat Unit) (r : Bytes) (parse : Parse) {f : File}
    {sections : List Section} (h : newFile order r parse = .file f sections) :
    parse = .file f sections ∧ (∀ order', newFile order' r parse = .file f sections) ∧
      ∀ i s known size, Opens sections i → sections[i]? = some s →
        s.opened known = .expanding size → size ≤ maxDeclaredSectionSize := by
  unfold newFile at h
  cases hname : checkSectionNameTable r with
  | error err => simp [hname] at h
  | ok _ =>
    cases parse with
    | panics => simp [hname] at h
    | fails err => simp [hname] at h
    | file f' sections' =>
      simp only [hname] at h
      cases hcheck : checkReachableSections order sections' with
      | error err => simp [hcheck] at h
      | ok _ =>
        simp only [hcheck] at h
        obtain ⟨rfl, rfl⟩ := Parse.file.inj h
        have hall := (checkReachableSections_eq_ok order).mp hcheck
        refine ⟨rfl, fun order' => ?_, ?_⟩
        · have hcheck' := (checkReachableSections_eq_ok order').mpr hall
          simp only [newFile, hname, hcheck']
        · intro i s known size hopens hs hopened
          have hlt : i < sections'.length := (List.getElem?_eq_some_iff.mp hs).1
          have hreach := (lookup_reachableSections sections' i).mpr ⟨marked_of_opens hopens, hlt⟩
          exact hall i s hreach hs size (declaredSectionSize_of_opened hopened)

namespace Sample

/-- A symbol table in the old form, whose strings are in the next section. -/
def symtab : Section :=
  ⟨".zdebug_x".toUTF8.toList, shtSymtab, 0, 20, 1, zlibMagic ++ ByteOrder.big.put 8 mb⟩

def symbols : Parse :=
  .file ⟨.class64, .big, etDyn, [], []⟩
    [symtab, ⟨".strtab".toUTF8.toList, 3, shfCompressed, 4096, 0, []⟩]

/-- It is accepted, and what it expands to is bounded although no flag says that it is
compressed. -/
theorem newFile_bounded_symbols :
    symtab.opened false = .expanding mb ∧ mb ≤ maxDeclaredSectionSize := by
  have hopened : symtab.opened false = .expanding mb := by decide +kernel
  have hnew : newFile .stored bomb.identification symbols = symbols := by
    have hname : checkSectionNameTable bomb.identification = .ok () := by decide +kernel
    have hcheck : checkReachableSections .stored
        [symtab, ⟨".strtab".toUTF8.toList, 3, shfCompressed, 4096, 0, []⟩] = .ok () := by
      decide +kernel
    simp only [newFile, symbols, hname, hcheck]
  exact ⟨hopened, (newFile_bounded .stored bomb.identification symbols hnew).2.2 0 symtab false mb
    (.table List.mem_cons_self (by decide)) rfl hopened⟩

end Sample

end RuntimeEnforcer.Elfutil
