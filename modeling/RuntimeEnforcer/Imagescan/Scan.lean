import RuntimeEnforcer.Imagescan.Classify

/-!
# The executables of an image

`internal/imagescan/scan.go` and `snapshot.go`: the files of an image with an execute bit and their
kinds, where a hard link has the kind of the file that it named when its layer was added, and the
paths that go through a symbolic link.

The image is what `stereoscope` makes of it: references of some type `ρ`, a catalog that says what a
reference is, a tree for each layer, and files that can be opened. Its errors are an `ε`.
-/

set_option autoImplicit false

namespace RuntimeEnforcer.Imagescan

open Lib
open Wpgen (Kind Executable Result sorted)

/-! ## What `stereoscope` loads -/

inductive EntryType
  | regular
  | hardLink
  | other
  deriving DecidableEq, Repr

/-- `filetree.IndexEntry`; `mode` is that of its `FileInfo`, if it has one. -/
structure IndexEntry where
  type : EntryType
  linkDestination : Bytes := []
  mode : Option Nat := none

/-- The outcome of `filetree.File`: an error, nothing, or a node that may have a reference. -/
inductive Lookup (ρ : Type)
  | error
  | missing
  | node (reference : Option ρ)

inductive Resolution (ε : Type)
  | unresolvable
  | error (e : ε)
  | missing
  | node (hasReference : Bool) (realPath : Bytes)

/-- An open file, as `classify` reads it. -/
structure Contents (ε : Type) where
  head : Except ε Bytes
  readerAt : Option Parsed

/-- `image.Image`: the number of its layers, the regular files and hard links of its squashed tree
(`AllFiles`), the catalog (`FileCatalog.Get`), the squashed tree of the layer that a reference is
in, if the catalog knows both, and what a file reads as. -/
structure Image (ρ ε : Type) where
  layers : Nat
  realPath : ρ → Bytes
  allFiles : List ρ
  get : ρ → Except ε IndexEntry
  layerTree : ρ → Option (Bytes → Lookup ρ)
  openReference : ρ → Except ε (Contents ε)
  resolve : Bytes → Resolution ε

variable {ρ ε : Type}

/-! ## Hard links -/

def slash : UInt8 := 0x2f

def cleanElement (stack : List Bytes) (element : Bytes) : List Bytes :=
  if element = [] ∨ element = ".".toUTF8.toList then stack
  else if element = "..".toUTF8.toList then stack.tail
  else element :: stack

/-- `path.Clean("/" + p)`. -/
def cleanRooted (p : Bytes) : Bytes :=
  slash :: [slash].intercalate ((p.splitOn slash).foldl cleanElement []).reverse

def hardLinkLoop (img : Image ρ ε) : Nat → ρ → IndexEntry → ρ × Bool
  | 0, ref, _ => (ref, false)
  | fuel + 1, ref, entry =>
    if entry.type ≠ .hardLink then (ref, entry.type = .regular)
    else
      match img.layerTree ref with
      | none => (ref, false)
      | some tree =>
        if entry.linkDestination = [] then (ref, false)
        else
          match tree (cleanRooted entry.linkDestination) with
          | .node (some target) =>
            match img.get target with
            | .error _ => (target, false)
            | .ok entry => hardLinkLoop img fuel target entry
          | _ => (ref, false)

def hardLinkTarget (img : Image ρ ε) (ref : ρ) (entry : IndexEntry) : ρ × Bool :=
  hardLinkLoop img img.layers ref entry

inductive ScanErr (ε : Type)
  | ctx (e : ε)
  | metadata (path : Bytes) (e : ε)
  | read (path : Bytes) (e : ε)
  | resolve (path : Bytes) (e : ε)

def ScanErr.error (quote : Bytes → String) (text : ε → String) : ScanErr ε → String
  | .ctx e => text e
  | .metadata path e => "cannot read metadata of " ++ quote path ++ ": " ++ text e
  | .read path e => "cannot read " ++ quote path ++ ": " ++ text e
  | .resolve path e => "cannot resolve " ++ quote path ++ ": " ++ text e

def classifyFile (img : Image ρ ε) (ref : ρ) (entry : IndexEntry) : Except (ScanErr ε) Kind :=
  match hardLinkTarget img ref entry with
  | (_, false) => .ok .program
  | (target, true) =>
    ((img.openReference target).bind fun rc => classify rc.head rc.readerAt).mapError
      (.read (img.realPath ref))

/-! ## The executables -/

def anyExecBit : Nat := 0o111

/-- One round of the loop of `Executables`; `ctxErr` is the error of the context at that moment. -/
def scanFile (img : Image ρ ε) (ctxErr : Option ε) (ref : ρ) :
    Except (ScanErr ε) (Option Executable) :=
  match ctxErr with
  | some e => .error (.ctx e)
  | none =>
    match img.get ref with
    | .error e => .error (.metadata (img.realPath ref) e)
    | .ok entry =>
      if (entry.mode.getD 0) &&& anyExecBit = 0 then .ok none
      else (classifyFile img ref entry).map fun kind => some ⟨img.realPath ref, kind⟩

/-- The loop of `Executables`; `ctx n` is the error of the context in round `n`. -/
def scanFiles (img : Image ρ ε) (ctx : Nat → Option ε) :
    Nat → List ρ → Except (ScanErr ε) (List Executable)
  | _, [] => .ok []
  | n, ref :: refs => do
    let e ← scanFile img (ctx n) ref
    let es ← scanFiles img ctx (n + 1) refs
    .ok (e.toList ++ es)

/-- `slices.CompactFunc`: of neighbours with one key, the first stays. -/
def compactBy {α β : Type} [DecidableEq β] (key : α → β) : List α → List α
  | [] => []
  | a :: as =>
    match compactBy key as with
    | [] => [a]
    | a' :: as' => if key a = key a' then a :: as' else a :: a' :: as'

def executables (img : Image ρ ε) (ctx : Nat → Option ε) : Except (ScanErr ε) (List Executable) :=
  (scanFiles img ctx 0 img.allFiles).map fun es =>
    compactBy Executable.path (es.insertionSort fun a b => a.path ≤ b.path)

/-! ## Symbolic links -/

def resolveLink (img : Image ρ ε) (links : GoMap Bytes Bytes) (p : Bytes) :
    Except (ScanErr ε) (GoMap Bytes Bytes) :=
  match img.resolve p with
  | .unresolvable => .ok links
  | .error e => .error (.resolve p e)
  | .missing => .ok links
  | .node false _ => .ok links
  | .node true realPath => .ok (if realPath ≠ p then links.insert p realPath else links)

def resolveLinks (img : Image ρ ε) (paths : List Bytes) :
    Except (ScanErr ε) (GoMap Bytes Bytes) :=
  paths.foldlM (resolveLink img) ∅

def scan (img : Image ρ ε) (ctx : Nat → Option ε) (lookup : List Bytes) :
    Except (ScanErr ε) Result := do
  let executables ← executables img ctx
  let links ← resolveLinks img lookup
  .ok { executables, links }

/-! ## Snapshots -/

structure Snapshot where
  image : String
  lookup : List Bytes
  executables : List Executable
  links : GoMap Bytes Bytes

def takeSnapshot (img : Image ρ ε) (ctx : Nat → Option ε) (image : String) (lookup : List Bytes) :
    Except (ScanErr ε) Snapshot :=
  (scan img ctx lookup).map fun result =>
    { image, lookup := compactBy id (sorted lookup), executables := result.executables
      links := result.links }

structure NoLookupPath where
  image : String
  path : Bytes

def Snapshot.resultLink (s : Snapshot) (links : GoMap Bytes Bytes) (p : Bytes) :
    Except NoLookupPath (GoMap Bytes Bytes) :=
  if p ∉ s.lookup then .error ⟨s.image, p⟩
  else
    match s.links.lookup p with
    | some target => .ok (links.insert p target)
    | none => .ok links

def Snapshot.result (s : Snapshot) (lookup : List Bytes) : Except NoLookupPath Result :=
  (lookup.foldlM s.resultLink ∅).map fun links => { executables := s.executables, links }

end RuntimeEnforcer.Imagescan
