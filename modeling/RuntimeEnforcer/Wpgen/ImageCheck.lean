import RuntimeEnforcer.Lib.GoMap
import RuntimeEnforcer.Lib.Search

/-!
# Checking a policy against an image

`newScannedImage` and `compare` of `internal/wpgen`: the executables of an image, told apart by
kind, and the paths that a container allows, told apart by what the scan found there. The scan
itself (`imagescan.Scan`) is an input.

Every allowed path ends up in one list: an executable that the options include, a library or an
unknown file that they do not, or else a stale path. A path that is allowed twice counts once. The
executables that no path allows are a list of their own. The lookup is a binary search, so that the
report is right only if the scan is sorted.
-/

set_option autoImplicit false

namespace RuntimeEnforcer.Wpgen

open Lib

/-- `imagescan.Kind`, a string: any other value is possible. -/
inductive Kind
  | program
  | library
  | script
  | unknown
  | other (value : String) (h : value ∉ ["program", "library", "script", "unknown"])
  deriving DecidableEq

/-- The zero value, which a map answers with for a missing key. -/
def Kind.zero : Kind := .other "" (by decide)

structure Executable where
  path : Bytes
  kind : Kind
  deriving DecidableEq

structure Result where
  executables : List Executable
  links : GoMap Bytes Bytes := ∅

def defaultSources : List String := ["file", "docker", "podman", "registry"]

/-- `scanOptions`, with the defaults of `addFlags`; the sources are `imagescan.DefaultSources`. -/
structure ScanOptions where
  platform : String := ""
  sources : List String := defaultSources
  includeLibraries : Bool := false
  includeUnknown : Bool := false

def ScanOptions.includes (o : ScanOptions) : Kind → Bool
  | .program | .script => true
  | .library => o.includeLibraries
  | .unknown => o.includeUnknown
  | .other _ _ => true

/-- `scannedImage`, the part that `newScannedImage` fills in from the executables of the image: by
the options, each is kept or skipped with its kind. -/
structure ScannedImage where
  executables : List Bytes
  skipped : GoMap Bytes Kind
  links : GoMap Bytes Bytes

/-- One round of the loop of `newScannedImage`. -/
def ScannedImage.add (opts : ScanOptions) (scanned : ScannedImage) (e : Executable) :
    ScannedImage :=
  if opts.includes e.kind then { scanned with executables := scanned.executables ++ [e.path] }
  else { scanned with skipped := scanned.skipped.insert e.path e.kind }

def newScannedImage (result : Result) (opts : ScanOptions) : ScannedImage :=
  result.executables.foldl (ScannedImage.add opts)
    { executables := [], skipped := ∅, links := result.links }

structure Container where
  name : String
  image : String
  init : Bool := false

structure CheckedContainer extends Container where
  allowed : List Bytes

structure ContainerReport extends CheckedContainer where
  stale : List Bytes := []
  links : GoMap Bytes Bytes := ∅
  libraries : List Bytes := []
  unknown : List Bytes := []
  executables : List Bytes := []
  notAllowed : List Bytes := []

structure Comparing where
  report : ContainerReport
  met : GoMap Bytes Bool := ∅

def Comparing.add (s : ScannedImage) (st : Comparing) (p : Bytes) : Comparing :=
  if (st.met.lookup p).getD false then st
  else
    let met := st.met.insert p true
    let report := st.report
    if (binarySearch s.executables p).2 then
      { met, report := { report with executables := report.executables ++ [p] } }
    else
      match (s.skipped.lookup p).getD Kind.zero with
      | .library => { met, report := { report with libraries := report.libraries ++ [p] } }
      | .unknown => { met, report := { report with unknown := report.unknown ++ [p] } }
      | .program | .script | .other _ _ =>
        { met
          report :=
            { report with
              stale := report.stale ++ [p]
              links :=
                match s.links.lookup p with
                | some target => report.links.insert p target
                | none => report.links } }

/-- `slices.Sort`. -/
def sorted (l : List Bytes) : List Bytes := l.insertionSort (· ≤ ·)

def compare (c : CheckedContainer) (s : ScannedImage) : ContainerReport :=
  let st := c.allowed.foldl (Comparing.add s) { report := { toCheckedContainer := c } }
  { st.report with
    executables := sorted st.report.executables
    stale := sorted st.report.stale
    libraries := sorted st.report.libraries
    unknown := sorted st.report.unknown
    notAllowed := s.executables.filter fun p => !(st.met.lookup p).getD false
    allowed := sorted st.met.keys }

end RuntimeEnforcer.Wpgen
