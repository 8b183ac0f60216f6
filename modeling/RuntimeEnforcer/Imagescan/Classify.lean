import RuntimeEnforcer.Lib.ByteOrder
import RuntimeEnforcer.Wpgen.ImageCheck

/-!
# Programs and libraries

`internal/imagescan/classify.go`: the kind of an executable file. A shared library and a position
independent program have the same ELF type, and what tells them apart is an interpreter, or a flag
in the dynamic segment, which is read here entry by entry from the bytes of the file.

Parsing the headers is `debug/elf`, and its outcome is an input: a file, an error or a panic. A
parsed file is of one of the two classes and in one of the two byte orders; `debug/elf` refuses any
other.
-/

set_option autoImplicit false

namespace RuntimeEnforcer.Imagescan

open Lib
open Wpgen (Kind)

/-! ## What `debug/elf` parses -/

inductive Class
  | class32
  | class64
  deriving DecidableEq, Repr

abbrev ProgType := UInt32

def ptDynamic : ProgType := 2

def ptInterp : ProgType := 3

/-- What is read of an `elf.Prog`. -/
structure Prog where
  type : ProgType
  off : UInt64
  filesz : UInt64

abbrev FileType := UInt16

def etNone : FileType := 0

def etRel : FileType := 1

def etDyn : FileType := 3

def etCore : FileType := 4

/-- `elf.File`, with the bytes of the file it was opened on. -/
structure File where
  elfClass : Class
  byteOrder : ByteOrder
  type : FileType
  progs : List Prog
  data : Bytes

structure Dyn64 where
  tag : Int64
  val : UInt64
  deriving DecidableEq

structure Dyn32 where
  tag : Int32
  val : UInt32
  deriving DecidableEq

/-! ## The dynamic segment -/

inductive Malformed
  | errMalformed
  deriving DecidableEq, Repr

open Malformed (errMalformed)

def maxDynamicSize : Nat := 64 * 1024

def Class.entrySize : Class → Nat
  | .class32 => 8
  | .class64 => 16

def decodeDyn64 (o : ByteOrder) (bs : Bytes) : Dyn64 where
  tag := Int64.ofNat (o.uint (bs.take 8))
  val := UInt64.ofNat (o.uint (bs.drop 8))

def decodeDyn32 (o : ByteOrder) (bs : Bytes) : Dyn32 where
  tag := Int32.ofNat (o.uint (bs.take 4))
  val := UInt32.ofNat (o.uint (bs.drop 4))

/-- `elf.Dyn64{Tag: int64(d.Tag), Val: uint64(d.Val)}`. -/
def Dyn32.widen (d : Dyn32) : Dyn64 := ⟨d.tag.toInt64, d.val.toUInt64⟩

/-- The entries in the bytes of a segment, whose length is a multiple of the entry size: the decoder
has all the bytes it asks for. -/
def decodeEntries (c : Class) (o : ByteOrder) (count : Nat) (data : Bytes) : List Dyn64 :=
  match c with
  | .class64 => decodeSlice c.entrySize (decodeDyn64 o) count data
  | .class32 => (decodeSlice c.entrySize (decodeDyn32 o) count data).map Dyn32.widen

/-- `io.ReadFull(p.Open(), make([]byte, size))`. Nothing is read for an empty buffer, so that this
succeeds wherever the segment begins. -/
def File.readFull (f : File) (p : Prog) (size : Nat) : Option Bytes :=
  if size = 0 then some []
  else if f.data.length < p.off.toNat + size then none
  else some ((f.data.drop p.off.toNat).take size)

def readDynamic (f : File) (p : Prog) : Except Malformed (List Dyn64) :=
  let entrySize := f.elfClass.entrySize
  if p.filesz.toNat > maxDynamicSize then .error errMalformed
  else
    let size := p.filesz.toNat
    if size % entrySize ≠ 0 then .error errMalformed
    else
      match f.readFull p size with
      | none => .error errMalformed
      | some data => .ok (decodeEntries f.elfClass f.byteOrder (size / entrySize) data)

def dtNull : Int64 := 0

def dtFlags1 : Int64 := 0x6ffffffb

def df1PIE : UInt64 := 0x08000000

/-- The loop of `isPIE`, with `flags1` and `found`. -/
def isPIELoop : List Dyn64 → UInt64 → Bool → Except Malformed Bool
  | [], _, _ => .error errMalformed
  | d :: entries, flags1, found =>
    if d.tag = dtNull then .ok (decide (flags1 &&& df1PIE ≠ 0))
    else if d.tag = dtFlags1 then
      if found then .error errMalformed else isPIELoop entries d.val true
    else isPIELoop entries flags1 found

/-- The first `PT_DYNAMIC` segment. -/
def File.dynamic (f : File) : Option Prog := f.progs.find? fun p => p.type = ptDynamic

def isPIE (f : File) : Except Malformed Bool :=
  match f.dynamic with
  | none => .ok false
  | some p =>
    match readDynamic f p with
    | .error e => .error e
    | .ok entries => isPIELoop entries 0 false

/-! ## The kind of a file -/

/-- What `elfutil.NewFile` makes of a file. -/
inductive Parsed
  | panics
  | fails
  | file (f : File)

def classifyELF : Parsed → Kind
  | .panics => .program
  | .fails => .program
  | .file f =>
    if f.type = etNone ∨ f.type = etRel ∨ f.type = etCore then .unknown
    else if f.type ≠ etDyn then .program
    else if f.progs.any fun p => p.type = ptInterp then .program
    else
      match isPIE f with
      | .error _ => .program
      | .ok true => .program
      | .ok false => .library

def shebang : Bytes := [0x23, 0x21]

def elfMag : Bytes := [0x7f, 0x45, 0x4c, 0x46]

/-- `classify`, of a reader that gave `head`, its first bytes and at most four, or failed. A reader
without random access has nothing to parse. -/
def classify {ε : Type} (head : Except ε Bytes) (readerAt : Option Parsed) : Except ε Kind :=
  match head with
  | .error e => .error e
  | .ok head =>
    if shebang <+: head then .ok .script
    else if head ≠ elfMag then .ok .unknown
    else
      match readerAt with
      | none => .ok .program
      | some parsed => .ok (classifyELF parsed)

end RuntimeEnforcer.Imagescan
