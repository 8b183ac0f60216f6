import RuntimeEnforcer.Imagescan.Classify

/-!
# Sections that declare too much

`internal/elfutil/elfutil.go`: before `debug/elf` parses a file, the one section it expands on its
own, the table of the section names, is looked up in the bytes of the file, and the file is refused
if the table declares more decompressed bytes than the limit. The other sections that are read are
looked at after the parse.

A read through a section reader returns all the bytes it asks for or fails. What `debug/elf` makes
of a file is an input, as in `Imagescan.Classify`.
-/

set_option autoImplicit false

namespace RuntimeEnforcer.Elfutil

open Lib Imagescan

def mb : Nat := 2 ^ 20

def maxDeclaredSectionSize : Nat := 128 * mb

/-- `ErrDeclaredSizeExceeded`, with what it is wrapped in: the section table, the name table, or a
section by its name. -/
inductive Exceeded
  | nameTable (declared : Nat)
  | section (name : Bytes) (declared : Nat)
  deriving DecidableEq, Repr

def Exceeded.error (quote : Bytes → String) : Exceeded → String
  | .nameTable declared => "declared decompressed size over the limit: " ++
      s!"elf section name table declares {declared} decompressed bytes, " ++
      s!"over the {maxDeclaredSectionSize} byte limit"
  | .section name declared => "declared decompressed size over the limit: elf section " ++
      quote name ++ s!" declares {declared} decompressed bytes, " ++
      s!"over the {maxDeclaredSectionSize} byte limit"

/-! ## Reading the file -/

def int64 (n : Int) : Int := n.bmod (2 ^ 64)

def maxInt64 : Nat := 2 ^ 63 - 1

/-- `io.ReadFull(io.NewSectionReader(r, off, n), make([]byte, n))`, for `n` that is not zero. -/
def readFull (r : Bytes) (off : Int) (n : Nat) : Option Bytes :=
  if off < 0 ∨ r.length < off.toNat + n then none else some ((r.drop off.toNat).take n)

/-- `binary.Read` of a record with fields of the given widths. -/
def readRecord (r : Bytes) (o : ByteOrder) (off : Int) (widths : List Nat) : Option (List Nat) :=
  (readFull r off widths.sum).map (o.fields widths)

def identify (r : Bytes) : Option (Imagescan.Class × ByteOrder) := do
  let ident ← readFull r 0 16
  if ident.take 4 ≠ elfMag then none
  else
    let c ← match ident.getD 4 0 with
      | 1 => some Imagescan.Class.class32
      | 2 => some Imagescan.Class.class64
      | _ => none
    match ident.getD 5 0 with
    | 1 => some (c, .little)
    | 2 => some (c, .big)
    | _ => none

/-! ## The headers

`elf.Header32` and `elf.Header64`, and so on, as the widths of their fields. -/

/-- `Ident`, `Type`, `Machine`, `Version`, `Entry`, `Phoff`, `Shoff`, `Flags`, `Ehsize`,
`Phentsize`, `Phnum`, `Shentsize`, `Shnum`, `Shstrndx`. -/
def headerWidths : Imagescan.Class → List Nat
  | .class32 => [16, 2, 2, 4, 4, 4, 4, 4, 2, 2, 2, 2, 2, 2]
  | .class64 => [16, 2, 2, 4, 8, 8, 8, 4, 2, 2, 2, 2, 2, 2]

/-- `Name`, `Type`, `Flags`, `Addr`, `Off`, `Size`, `Link`, `Info`, `Addralign`, `Entsize`. -/
def sectionWidths : Imagescan.Class → List Nat
  | .class32 => [4, 4, 4, 4, 4, 4, 4, 4, 4, 4]
  | .class64 => [4, 4, 8, 8, 8, 8, 4, 4, 8, 8]

def sectionHeaderSize (c : Imagescan.Class) : Nat := (sectionWidths c).sum

structure FileHeader where
  shoff : Int
  shentsize : Nat
  shnum : Nat
  shstrndx : Nat

def fileHeader (r : Bytes) (c : Imagescan.Class) (o : ByteOrder) : Option FileHeader := do
  match ← readRecord r o 0 (headerWidths c) with
  | [_ident, _type, _machine, _version, _entry, _phoff, shoff, _flags, _ehsize, _phentsize, _phnum,
      shentsize, shnum, shstrndx] => some { shoff := int64 shoff, shentsize, shnum, shstrndx }
  | _ => none

structure SectionHeader where
  flags : Nat
  offset : Int
  size : Nat
  link : Nat

def readSectionHeader (r : Bytes) (c : Imagescan.Class) (o : ByteOrder) (off : Int) :
    Option SectionHeader := do
  match ← readRecord r o off (sectionWidths c) with
  | [_name, _type, flags, _addr, off, size, link, _info, _addralign, _entsize] =>
    some { flags, offset := int64 off, size, link }
  | _ => none

def shnXINDEX : Nat := 0xffff

/-- The count of sections and the index of the name table: where `e_shnum` is zero, they are in the
first section header. -/
def numbering (r : Bytes) (c : Imagescan.Class) (o : ByteOrder) (h : FileHeader) :
    Option (Nat × Nat) :=
  if h.shnum = 0 then do
    let sh ← readSectionHeader r c o h.shoff
    some (sh.size, if h.shstrndx = shnXINDEX then sh.link else h.shstrndx)
  else some (h.shnum, h.shstrndx)

/-- Where entry `i` of the section table is, unless the product or then the sum wraps. -/
def entryOffset (shoff : Int) (shentsize i : Nat) : Option Int :=
  if i > maxInt64 / shentsize then none
  else
    let off := int64 (shoff + i * shentsize)
    if off < 0 then none else some off

def sectionNameTableHeader (r : Bytes) (c : Imagescan.Class) (o : ByteOrder) :
    Option SectionHeader := do
  let h ← fileHeader r c o
  if h.shoff ≤ 0 ∨ h.shentsize < sectionHeaderSize c then none
  else
    let (shnum, shstrndx) ← numbering r c o h
    if shstrndx = 0 ∨ shstrndx ≥ shnum then none
    else
      let off ← entryOffset h.shoff h.shentsize shstrndx
      readSectionHeader r c o off

/-- `compressedSize`: the size in an `elf.Chdr32`, which has `Type`, `Size` and `Addralign`, or in
an `elf.Chdr64`, which has a blank field after the type. -/
def compressedSize (r : Bytes) (c : Imagescan.Class) (o : ByteOrder) (off : Int) : Option Nat :=
  if off < 0 then none
  else
    match c with
    | .class32 => do
      match ← readRecord r o off [4, 4, 4] with
      | [_type, size, _addralign] => some size
      | _ => none
    | .class64 => do
      match ← readRecord r o off [4, 4, 8, 8] with
      | [_type, _, size, _addralign] => some size
      | _ => none

def shfAlloc : Nat := 0x2

def shfCompressed : Nat := 0x800

/-- What the name table declares, if it declares anything. -/
def nameTableSize (r : Bytes) : Option Nat := do
  let (c, o) ← identify r
  let sh ← sectionNameTableHeader r c o
  if sh.flags &&& shfCompressed = 0 then none else compressedSize r c o sh.offset

def checkSectionNameTable (r : Bytes) : Except Exceeded Unit :=
  match nameTableSize r with
  | none => .ok ()
  | some declared =>
    if declared > maxDeclaredSectionSize then .error (.nameTable declared) else .ok ()

/-! ## After the parse -/

/-- What is read of an `elf.Section`; `content` is what its reader has. -/
structure Section where
  name : Bytes
  type : Nat
  flags : Nat
  size : Nat
  link : Nat
  content : Bytes

def shtSymtab : Nat := 2

def shtDynamic : Nat := 6

def shtNobits : Nat := 8

def shtDynsym : Nat := 11

def shtGnuVerdef : Nat := 0x6ffffffd

def shtGnuVerneed : Nat := 0x6ffffffe

def shtGnuVersym : Nat := 0x6fffffff

def sectionsReadByName : List Bytes :=
  [".symtab", ".data", ".text", ".gopclntab", ".note.package", ".modinfo"].map (·.toUTF8.toList)

def legacyZlibHeaderSize : Nat := 12

def zdebugPrefix : Bytes := ".zdebug".toUTF8.toList

def zlibMagic : Bytes := "ZLIB".toUTF8.toList

def chdrDeclaredSize (s : Section) : Option Nat :=
  if s.flags &&& shfAlloc ≠ 0 then none else some s.size

def zdebugDeclaredSize (s : Section) : Option Nat :=
  if ¬ zdebugPrefix <+: s.name then none
  else
    let hdr := s.content.take legacyZlibHeaderSize
    if hdr.length ≠ legacyZlibHeaderSize ∨ hdr.take 4 ≠ zlibMagic then none
    else some (ByteOrder.big.uint (hdr.drop 4))

def declaredSectionSize (s : Section) : Option Nat :=
  if s.type = shtNobits then none
  else if s.flags &&& shfCompressed ≠ 0 then chdrDeclaredSize s
  else zdebugDeclaredSize s

def marks (i : Nat) (s : Section) : List Nat :=
  (if s.type = shtSymtab ∨ s.type = shtDynsym ∨ s.type = shtDynamic then [i, s.link]
    else if s.type = shtGnuVersym ∨ s.type = shtGnuVerdef ∨ s.type = shtGnuVerneed then [i]
    else []) ++
  if s.name ∈ sectionsReadByName then [i] else []

def reachableSections (sections : List Section) : GoMap Nat Unit :=
  (sections.zipIdx.flatMap fun e => marks e.2 e.1).foldl
    (fun reach i => if i < sections.length then reach.insert i () else reach) ∅

/-- One turn of the loop of `checkReachableSections`. -/
def checkSection (s : Section) : Except Exceeded Unit :=
  match declaredSectionSize s with
  | none => .ok ()
  | some declared =>
    if declared > maxDeclaredSectionSize then .error (.section s.name declared) else .ok ()

/-- `checkReachableSections`, in the order the map is visited in. -/
def checkReachableSections (order : Order Nat Unit) (sections : List Section) :
    Except Exceeded Unit :=
  (order.range 0 (reachableSections sections)).forM fun e =>
    match sections[e.1]? with
    | none => .ok ()
    | some s => checkSection s

/-- The error of `NewFile`: one of `debug/elf`, or a refusal. -/
inductive NewFileErr
  | format
  | exceeded (e : Exceeded)
  deriving DecidableEq, Repr

/-- What `elf.NewFile`, and then `NewFile`, makes of a file. -/
inductive Parse
  | panics
  | fails (e : NewFileErr)
  | file (f : File) (sections : List Section)

/-- `NewFile`, with the outcome of `elf.NewFile`. -/
def newFile (order : Order Nat Unit) (r : Bytes) (parse : Parse) : Parse :=
  match checkSectionNameTable r with
  | .error e => .fails (.exceeded e)
  | .ok _ =>
    match parse with
    | .file f sections =>
      match checkReachableSections order sections with
      | .error e => .fails (.exceeded e)
      | .ok _ => .file f sections
    | outcome => outcome

/-- What `classifyELF` sees of it. -/
def Parse.parsed : Parse → Parsed
  | .panics => .panics
  | .fails _ => .fails
  | .file f _ => .file f

end RuntimeEnforcer.Elfutil
