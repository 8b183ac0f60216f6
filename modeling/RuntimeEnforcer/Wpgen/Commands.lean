import RuntimeEnforcer.Imagescan.Scan
import RuntimeEnforcer.Wpgen.Workload

/-!
# Drafting and checking, from file to verdict

`wpgen workload` and `wpgen check`: `internal/manifest`, `internal/workloadparse`,
`internal/policydraft`, and `runWorkload` and `runCheck` of `internal/wpgen` with what they call.
Both commands check their flags, read a manifest, load the images of its containers and scan them.
The one writes a policy for each workload, the other reads a policy and compares it with the one
workload of the manifest, container by container.

Three things are inputs. The documents of a stream come decoded: an object has its names and the
outcome of the conversion to a workload or a policy, so that every way in which a document can fail
is still there. Images come from `Source.load`, which is given what `imagescan.Load` is given, the
platform and the sources to try. And a string that is written as YAML or JSON passes through
`encoding/json`, of which `Codec` keeps what it documents: text is kept, and bytes that are not
UTF-8 are replaced. What is printed on the way is left out, the verdict is not.
-/

set_option autoImplicit false

namespace RuntimeEnforcer.Wpgen

open Lib
open Imagescan (Image ScanErr scan)

/-! ## Manifests

A stream is read to its end or to the first error, and the error has the number of its document. A
list is the objects in it, one after the other; an empty document counts and has none. -/

/-- A document of a stream. -/
inductive Document (α : Type)
  | malformed (msg : String)
  | empty
  | object (o : α)
  | list (items : Except String (List α))

/-- `document %d: %w`, with an error of the decoder or of the function that is called. -/
inductive DocumentErr (ε : Type)
  | decode (doc : Nat) (msg : String)
  | object (doc : Nat) (e : ε)

section

variable {α σ ε : Type}

/-- The objects of a document, unless it is malformed. -/
def Document.objects : Document α → Except String (List α)
  | .malformed msg => .error msg
  | .empty => .ok []
  | .object o => .ok [o]
  | .list items => items

/-- `ForEachObject`, from document `doc` on. -/
def forEachObject (fn : σ → α → Except ε σ) : Nat → List (Document α) → σ → Except (DocumentErr ε) σ
  | _, [], st => .ok st
  | doc, d :: ds, st => do
    let objects ← d.objects.mapError (DocumentErr.decode doc)
    let st ← (objects.foldlM fn st).mapError (DocumentErr.object doc)
    forEachObject fn (doc + 1) ds st

end

/-! ## Policies -/

/-- `v1alpha1.WorkloadPolicy`, as far as it is drafted or checked; the rules of a container may be
missing. -/
structure Policy where
  name : String
  ns : String
  mode : String
  rulesByContainer : GoMap String (Option (List Bytes))

/-- The pod template of a workload. -/
structure PodTemplate where
  labels : GoMap String String
  containers : List (String × String)
  initContainers : List (String × String)

/-- An object of a manifest, with what the conversions make of it. -/
structure Object where
  apiVersion : String
  kind : String
  name : String
  ns : String
  template : Except String PodTemplate
  policy : Except String Policy

/-- `GroupVersion().String()` and the kind, both empty if the version has two slashes. -/
def Object.groupVersionKind (o : Object) : String × String :=
  if (o.apiVersion.toList.filter (· = '/')).length > 1 then ("", "")
  else if o.apiVersion.toList.head? = some '/' then (String.ofList o.apiVersion.toList.tail, o.kind)
  else (o.apiVersion, o.kind)

def groupVersion : String := "runtimeenforcer.kubewarden.io/v1alpha1"

def policyKind : String := "WorkloadPolicy"

def proposalKind : String := "WorkloadPolicyProposal"

def modeIsValid (mode : String) : Bool := mode = "monitor" || mode = "protect"

/-- `policydraft.New`; the error holds the mode. -/
def newDraft (name ns mode : String) (executables : GoMap String (List Bytes)) :
    Except String Policy :=
  if modeIsValid mode then .ok { name, ns, mode, rulesByContainer := executables.map some }
  else .error mode

/-- Whether the bytes are UTF-8. -/
def isText (s : Bytes) : Bool := (ByteArray.mk s.toArray).validateUTF8

/-- What a string is when it has been written as YAML or JSON and read again. Both formats go
through `encoding/json`, which coerces a string to valid UTF-8 and replaces the invalid bytes. -/
structure Codec where
  text : Bytes → Bytes
  isText_text : ∀ s, isText (text s) = true
  text_of_isText : ∀ s, isText s = true → text s = s

/-- `Encode`, as it is read again. Paths come from the tar headers of an image and may be any bytes;
the other strings come from a manifest. -/
def encode (codec : Codec) (p : Policy) : Object where
  apiVersion := groupVersion
  kind := policyKind
  name := p.name
  ns := p.ns
  template := .error ""
  policy := .ok
    { p with rulesByContainer := p.rulesByContainer.map (Option.map (List.map codec.text)) }

def encodeAll (codec : Codec) (ps : List Policy) : List (Document Object) :=
  ps.map fun p => .object (encode codec p)

/-- An error of `Decode`: the object and what is wrong with it. -/
structure DecodeErr where
  kind : String
  name : String
  msg : String

/-- One object of `Decode`; a proposal becomes a policy without a mode. Of the objects that are
skipped only the number is kept. -/
def decodeObject (st : List Policy × Nat) (o : Object) : Except DecodeErr (List Policy × Nat) :=
  if o.groupVersionKind = (groupVersion, policyKind) then
    match o.policy with
    | .error msg => .error ⟨o.kind, o.name, msg⟩
    | .ok p => .ok (st.1 ++ [p], st.2)
  else if o.groupVersionKind = (groupVersion, proposalKind) then
    match o.policy with
    | .error msg => .error ⟨o.kind, o.name, msg⟩
    | .ok p => .ok (st.1 ++ [{ p with mode := "" }], st.2)
  else .ok (st.1, st.2 + 1)

def decode (docs : List (Document Object)) : Except (DocumentErr DecodeErr) (List Policy × Nat) :=
  forEachObject decodeObject 1 docs ([], 0)

/-! ## Workloads

`Parse` takes what has a pod template, by group, version and kind, and reports everything else as
skipped, with the reason. A workload that it takes has to be complete: it has a name and at least
one container, and every container has a name and an image. -/

/-- `extractorFor`, with the kind of the workload. -/
def extractorFor (gvk : String × String) : Option Podworkload.Kind :=
  if gvk = ("apps/v1", "Deployment") then some .deployment
  else if gvk = ("apps/v1", "ReplicaSet") then some .replicaSet
  else if gvk = ("apps/v1", "DaemonSet") then some .daemonSet
  else if gvk = ("apps/v1", "StatefulSet") then some .statefulSet
  else if gvk = ("batch/v1", "Job") then some .job
  else if gvk = ("batch/v1", "CronJob") then some .cronJob
  else none

def isWorkloadKind (kind : String) : Bool :=
  ["Deployment", "ReplicaSet", "DaemonSet", "CronJob", "Job", "StatefulSet"].contains kind

def skipReason (gvk : String × String) : String :=
  if gvk = ("v1", "Pod") then "runtime-enforcer does not learn policies for bare pods"
  else if isWorkloadKind gvk.2 then s!"unsupported apiVersion {gvk.1.quote}"
  else "not a workload"

structure Skipped where
  apiVersion : String
  kind : String
  name : String
  reason : String
  deriving DecidableEq, Repr

inductive ParseErr
  | noName (kind : Podworkload.Kind)
  | template (kind : Podworkload.Kind) (name msg : String)
  | noContainers (kind : Podworkload.Kind) (name : String)
  | containerWithoutName (kind : Podworkload.Kind) (name : String)
  | containerWithoutImage (kind : Podworkload.Kind) (name container : String)
  deriving DecidableEq, Repr

def ParseErr.error : ParseErr → String
  | .noName kind => s!"{kind.string} has no name"
  | .template kind name msg => s!"{kind.string} {name.quote}: {msg}"
  | .noContainers kind name => s!"{kind.string} {name.quote} has no containers"
  | .containerWithoutName kind name =>
    s!"{kind.string} {name.quote} has a container without a name"
  | .containerWithoutImage kind name container =>
    s!"{kind.string} {name.quote}: container {container.quote} has no image"

def Workload.validateContainer (w : Workload) (c : Container) : Except ParseErr Unit :=
  if c.name = "" then .error (.containerWithoutName w.kind w.name)
  else if c.image = "" then .error (.containerWithoutImage w.kind w.name c.name)
  else .ok ()

def Workload.validate (w : Workload) : Except ParseErr Unit :=
  if w.containers.length = 0 then .error (.noContainers w.kind w.name)
  else w.containers.forM w.validateContainer

def parseObject (o : Object) : Except ParseErr (Workload ⊕ Skipped) :=
  match extractorFor o.groupVersionKind with
  | none => .ok (.inr ⟨o.apiVersion, o.kind, o.name, skipReason o.groupVersionKind⟩)
  | some kind =>
    if o.name = "" then .error (.noName kind)
    else
      match o.template with
      | .error msg => .error (.template kind o.name msg)
      | .ok tmpl =>
        let w : Workload :=
          { kind, name := o.name, ns := o.ns, podLabels := tmpl.labels
            containers := tmpl.containers.map (fun c => { name := c.1, image := c.2 }) ++
              tmpl.initContainers.map (fun c => { name := c.1, image := c.2, init := true }) }
        w.validate.map fun _ => .inl w

def parseStep (st : List Workload × List Skipped) (o : Object) :
    Except ParseErr (List Workload × List Skipped) :=
  (parseObject o).map fun
    | .inl w => (st.1 ++ [w], st.2)
    | .inr s => (st.1, st.2 ++ [s])

def parse (docs : List (Document Object)) :
    Except (DocumentErr ParseErr) (List Workload × List Skipped) :=
  forEachObject parseStep 1 docs ([], [])

/-! ## Flags

Each command collects what is wrong with its flags and stops before it reads a file. -/

/-- What is wrong with the flags. -/
inductive FlagErr
  | noSource
  | unknownSource (source : String)
  | mode (mode : String)
  | output (format : String)
  | warnThreshold (value : Int)
  | containerName
  | standardInput
  deriving DecidableEq, Repr

/-- `ValidateSources`; `known` are the `KnownSources`. -/
def validateSources (known sources : List String) : Except FlagErr Unit :=
  if sources.length = 0 then .error .noSource
  else sources.forM fun s => if known.contains s then .ok () else .error (.unknownSource s)

def ScanOptions.validate (o : ScanOptions) (known : List String) : List FlagErr :=
  match validateSources known o.sources with
  | .error e => [e]
  | .ok () => []

/-- `draftOptions`, with the defaults of `addFlags`. -/
structure DraftOptions extends ScanOptions where
  mode : String := "monitor"
  output : String := "yaml"
  warnThreshold : Int := 50

def DraftOptions.validate (o : DraftOptions) (known : List String) : List FlagErr :=
  o.toScanOptions.validate known ++
  (if modeIsValid o.mode then [] else [.mode o.mode]) ++
  (if o.output ≠ "yaml" ∧ o.output ≠ "json" then [.output o.output] else []) ++
  if o.warnThreshold < 0 then [.warnThreshold o.warnThreshold] else []

/-- `checkOptions` with `--workload`, so that there is no `--image`. -/
structure CheckOptions extends ScanOptions where
  workload : String
  containerName : String := ""
  output : String := "table"

def stdinFile : String := "-"

def CheckOptions.validate (o : CheckOptions) (known : List String) (policyFile : String) :
    List FlagErr :=
  o.toScanOptions.validate known ++
  (if o.containerName ≠ "" then [.containerName] else []) ++
  (if policyFile = stdinFile ∧ o.workload = stdinFile then [.standardInput] else []) ++
  if o.output ≠ "table" ∧ o.output ≠ "json" then [.output o.output] else []

/-! ## Images -/

structure LoadOptions where
  sources : List String
  platform : String
  deriving DecidableEq, Repr

/-- Where images come from. `goarch` is the architecture of the host, `knownSources` are those that
`stereoscope` has, `load` is `imagescan.Load`, and `ctx` is the error of the context in each round
of a scan. -/
structure Source (ρ ε : Type) where
  goarch : String
  knownSources : List String
  load : LoadOptions → String → Except ε (Image ρ ε)
  ctx : Nat → Option ε

/-- What `scanImage` asks `Load` for. The platform is that of the flag, or else linux on the
architecture of the host. -/
def ScanOptions.loadOptions (o : ScanOptions) (goarch : String) : LoadOptions where
  sources := o.sources
  platform := if o.platform ≠ "" then o.platform else "linux/" ++ goarch

/-- The errors of the two commands. The last is a verdict that the command has reported. -/
inductive RunErr (ε : Type)
  | flags (errs : List FlagErr)
  | policyFile (e : DocumentErr DecodeErr)
  | policyCount (found : Nat)
  | workloadFile (e : DocumentErr ParseErr)
  | noWorkload
  | workloadCount (found : List Workload)
  | draft (e : DraftErr)
  | mode (mode : String)
  | load (e : ε)
  | scan (image : String) (e : ScanErr ε)
  | noCommonContainer (kind : Podworkload.Kind) (name : String)
  | reported (msg : String)

variable {ρ ε : Type}

def checkFlags (errs : List FlagErr) : Except (RunErr ε) Unit :=
  if errs = [] then .ok () else .error (.flags errs)

def scanImage (src : Source ρ ε) (opts : ScanOptions) (image : String) (lookup : List Bytes) :
    Except (RunErr ε) ScannedImage := do
  let img ← (src.load (opts.loadOptions src.goarch) image).mapError RunErr.load
  let result ← (scan img src.ctx lookup).mapError (RunErr.scan image)
  .ok (newScannedImage result opts)

def readWorkloads (docs : List (Document Object)) : Except (RunErr ε) (List Workload) := do
  let (workloads, _) ← (parse docs).mapError RunErr.workloadFile
  if workloads.length = 0 then .error .noWorkload else .ok workloads

/-! ## `wpgen workload`

Names and conflicts are settled before the first image is loaded. An image is scanned once, however
many containers have it, with no path to look up. -/

/-- A container of the loop over the images of `runWorkload`. -/
def scanOnce (src : Source ρ ε) (opts : ScanOptions) (scanned : GoMap String ScannedImage)
    (c : Container) : Except (RunErr ε) (GoMap String ScannedImage) :=
  if (scanned.lookup c.image).isSome then .ok scanned
  else (scanImage src opts c.image []).map fun s => scanned.insert c.image s

def executablesOf (scanned : GoMap String ScannedImage) (cs : List Container) :
    GoMap String (List Bytes) :=
  cs.foldl (fun m c => m.insert c.name (((scanned.lookup c.image).map
    ScannedImage.executables).getD [])) ∅

def draftPolicy (mode : String) (scanned : GoMap String ScannedImage) (d : DraftedWorkload) :
    Except (RunErr ε) Policy :=
  (newDraft d.policyName d.ns mode (executablesOf scanned d.containers)).mapError RunErr.mode

/-- `runWorkload`, up to the output. -/
def runWorkload (v : NameValidation) (src : Source ρ ε) (opts : DraftOptions)
    (docs : List (Document Object)) : Except (RunErr ε) (List Policy) := do
  checkFlags (opts.validate src.knownSources)
  let workloads ← readWorkloads docs
  let drafted ← (draftWorkloads v workloads).mapError RunErr.draft
  let scanned ← (drafted.flatMap fun d => d.containers).foldlM
    (scanOnce src opts.toScanOptions) ∅
  drafted.mapM (draftPolicy opts.mode scanned)

/-! ## `wpgen check`

The policy file has to hold one policy and the manifest one workload. Containers are matched by
name. The images are scanned once too, but here with the paths that their containers allow: where
such a path is a link, the scan says what it resolves to. -/

def readPolicy (docs : List (Document Object)) : Except (RunErr ε) Policy := do
  let (policies, _) ← (decode docs).mapError RunErr.policyFile
  match policies with
  | [p] => .ok p
  | _ => .error (.policyCount policies.length)

structure WorkloadMatch where
  workload : String := ""
  onlyInPolicy : List String := []
  onlyInWorkload : List String := []

def matchContainer (policy : Policy) (st : List CheckedContainer × List String) (c : Container) :
    List CheckedContainer × List String :=
  match policy.rulesByContainer.lookup c.name with
  | none => (st.1, st.2 ++ [c.name])
  | some rules => (st.1 ++ [{ toContainer := c, allowed := rules.getD [] }], st.2)

def matchContainers (policy : Policy) (w : Workload) :
    Except (RunErr ε) (List CheckedContainer × WorkloadMatch) :=
  let (containers, onlyInWorkload) := w.containers.foldl (matchContainer policy) ([], [])
  let onlyInPolicy := (policy.rulesByContainer.keys.mergeSort (· ≤ ·)).filter fun name =>
    !(w.containers.any fun c => c.name = name)
  if containers.length = 0 then .error (.noCommonContainer w.kind w.name)
  else
    .ok (containers,
      { workload := s!"{w.kind.string} {w.name.quote}", onlyInPolicy, onlyInWorkload })

def workloadContainers (policy : Policy) (docs : List (Document Object)) :
    Except (RunErr ε) (List CheckedContainer × WorkloadMatch) := do
  match ← readWorkloads docs with
  | [w] => matchContainers policy w
  | ws => .error (.workloadCount ws)

/-- One container of the first loop of `checkContainers`: the images in order, and the paths to look
up in each. -/
def collectImage (st : List String × GoMap String (List Bytes)) (c : CheckedContainer) :
    List String × GoMap String (List Bytes) :=
  (if (st.2.lookup c.image).isSome then st.1 else st.1 ++ [c.image],
    st.2.insert c.image ((st.2.lookup c.image).getD [] ++ c.allowed))

def scanLookup (src : Source ρ ε) (opts : ScanOptions) (lookup : GoMap String (List Bytes))
    (scanned : GoMap String ScannedImage) (image : String) :
    Except (RunErr ε) (GoMap String ScannedImage) :=
  (scanImage src opts image ((lookup.lookup image).getD [])).map fun s => scanned.insert image s

/-- `checkContainers`; every container's image is scanned. -/
def checkContainers (src : Source ρ ε) (opts : ScanOptions) (containers : List CheckedContainer) :
    Except (RunErr ε) (List ContainerReport) := do
  let (images, lookup) := containers.foldl collectImage ([], ∅)
  let scanned ← images.foldlM (scanLookup src opts lookup) ∅
  .ok (containers.filterMap fun c => (scanned.lookup c.image).map (compare c))

structure CheckResult extends WorkloadMatch where
  containers : List ContainerReport

def CheckResult.stale (r : CheckResult) : Nat := (r.containers.map fun c => c.stale.length).sum

def CheckResult.skipped (r : CheckResult) : Nat :=
  (r.containers.map fun c => c.libraries.length + c.unknown.length).sum

def countText (n : Nat) (singular plural : String) : String :=
  if n = 1 then "1 " ++ singular else s!"{n} {plural}"

def CheckResult.problems (r : CheckResult) : List String :=
  (if r.stale > 0 then
    [countText r.stale "allowed path is not an executable in the images"
      "allowed paths are not executables in the images"] else []) ++
  if r.onlyInWorkload.length > 0 then
    [countText r.onlyInWorkload.length "container of the workload has no rules in the policy"
      "containers of the workload have no rules in the policy"] else []

/-- The error of `printVerdict`. -/
def printVerdict (r : CheckResult) : Except (RunErr ε) Unit :=
  if r.problems.length > 0 then .error (.reported (", and ".intercalate r.problems)) else .ok ()

/-- `runCheck` with `--workload`: the report that is rendered, and the verdict after it. -/
def runCheck (src : Source ρ ε) (opts : CheckOptions) (policyFile : String)
    (policyDocs docs : List (Document Object)) :
    Except (RunErr ε) (CheckResult × Except (RunErr ε) Unit) := do
  checkFlags (opts.validate src.knownSources policyFile)
  let policy ← readPolicy policyDocs
  let (containers, found) ← workloadContainers policy docs
  let reports ← checkContainers src opts.toScanOptions containers
  let result : CheckResult := { toWorkloadMatch := found, containers := reports }
  .ok (result, printVerdict result)

end RuntimeEnforcer.Wpgen
