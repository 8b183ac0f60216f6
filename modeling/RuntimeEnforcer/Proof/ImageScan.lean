import RuntimeEnforcer.Imagescan.Scan
import RuntimeEnforcer.Lib.Fallible
import RuntimeEnforcer.Lib.Layers
import Mathlib.Data.List.Dedup

/-!
# The executables are those of the running container

An image is extracted layer by layer, and a hard link then names the file that its destination named
at that moment, whatever a later layer does to the destination (`Layers.runtime`). The library that
loads the image extracts nothing. It keeps an index: what each layer added, with a hard link bound
to its target only when both are in the same layer, and for each layer the tree of the paths that
are visible up to there. `hardLinkTarget` makes up for the difference by following a link in the
tree of the layer that added it.

The library is not part of the repository, so its index is not defined here. `Indexes` says what the
code relies on, in the terms of `Lib.Layers`, and the result is about every image that is so: that
`Executables` finds the kind each path has at runtime. `Sample.indexed` is one such image.
-/

set_option autoImplicit false

namespace RuntimeEnforcer.Imagescan

open Lib Lib.Layers
open Wpgen (Kind Executable Result sorted)

variable {ρ ε : Type}

/-! ## The image of some layers -/

abbrev ImageLayer := Layer Bytes Bytes

/-- What the archive says of a node that is not in its tree. -/
structure Archive where
  mode : Ref Bytes → Nat
  head : Ref Bytes → Bytes
  readerAt : Ref Bytes → Option Parsed

def entryOf (a : Archive) (ref : Ref Bytes) : Bound Bytes Bytes → IndexEntry
  | .file _ => { type := .regular, mode := some (a.mode ref) }
  | .link t => { type := .hardLink, linkDestination := t, mode := some (a.mode ref) }
  | .other => { type := .other, mode := some (a.mode ref) }

def Bound.isFile : Bound Bytes Bytes → Bool
  | .other => false
  | _ => true

/-- What is asked of the image that is loaded from some layers. `node` tells which layer has added
the node of a reference, and under which path. `AllFiles` are the files and links that are visible
when all layers are there, and catalog and contents are those of the archive. A hard link that is
not bound has the destination of the archive, and the tree of its layer finds there what is visible
when the layers up to it are there.

The paths are real ones: neither the path of an entry nor the destination of a hard link leads
through a symbolic link to a directory, which `Lib.Layers` does not have. -/
structure Indexes (ls : List ImageLayer) (a : Archive) (img : Image ρ ε)
    (node : ρ → Ref Bytes) : Prop where
  layers : img.layers = ls.length
  realPath : ∀ r, img.realPath r = (node r).path
  allFiles : ∀ ref, (∃ r ∈ img.allFiles, node r = ref) ↔
    tree cleanRooted ls ls.length ref.path = some ref ∧
      (bound cleanRooted ls ref.layer ref.path).any Bound.isFile = true
  get : ∀ r b, bound cleanRooted ls (node r).layer (node r).path = some b →
    img.get r = .ok (entryOf a (node r) b)
  layerTree : ∀ r t, bound cleanRooted ls (node r).layer (node r).path = some (.link t) →
    ∃ lookup, img.layerTree r = some lookup ∧
      match tree cleanRooted ls ((node r).layer + 1) (cleanRooted t) with
      | none => lookup (cleanRooted t) = .missing
      | some ref => ∃ r', lookup (cleanRooted t) = .node (some r') ∧ node r' = ref
  opens : ∀ r f, bound cleanRooted ls (node r).layer (node r).path = some (.file f) →
    img.openReference r = .ok { head := .ok (a.head f), readerAt := a.readerAt f }

/-- The kind of a file. -/
def Archive.kind (a : Archive) (f : Ref Bytes) : Kind :=
  match classify (ε := Empty) (.ok (a.head f)) (a.readerAt f) with
  | .ok kind => kind

/-- The kind of what a path names at runtime; in doubt, a program. -/
def Archive.kindOf (a : Archive) : Option (Layers.Node Bytes) → Kind
  | some (.file f) => a.kind f
  | _ => .program

/-! ## Following links -/

section

variable {ls : List ImageLayer} {a : Archive} {img : Image ρ ε} {node : ρ → Ref Bytes}

/-- No link has an empty destination. -/
def Destinations (ls : List ImageLayer) : Prop :=
  ∀ n p t, bound cleanRooted ls n p = some (.link t) → t ≠ []

/-- **The loop finds the file that a node is at runtime**, in as many rounds as there are layers up
to its own: every link it follows leads to a lower layer. -/
theorem Indexes.hardLinkLoop (h : Indexes ls a img node) (ho : Ordered cleanRooted ls)
    (hd : Destinations ls) (fuel : Nat) (r : ρ) (b : Bound Bytes Bytes)
    (hb : bound cleanRooted ls (node r).layer (node r).path = some b)
    (hfuel : (node r).layer < fuel) :
    match names cleanRooted ls (node r) with
    | some (.file f) => ∃ target,
        Imagescan.hardLinkLoop img fuel r (entryOf a (node r) b) = (target, true) ∧
          bound cleanRooted ls (node target).layer (node target).path = some (.file f)
    | _ => ∃ target,
        Imagescan.hardLinkLoop img fuel r (entryOf a (node r) b) = (target, false) := by
  induction fuel generalizing r b with
  | zero => exact absurd hfuel (by omega)
  | succ fuel ih =>
    cases b with
    | file f => simp [names, hb, Bound.node, Imagescan.hardLinkLoop, entryOf]
    | other => simp [names, hb, Bound.node, Imagescan.hardLinkLoop, entryOf]
    | link t =>
      have ht := hd _ _ _ hb
      obtain ⟨lookup, hlayer, hshown⟩ := h.layerTree r t hb
      rw [names_link ho hb]
      cases htree : tree cleanRooted ls ((node r).layer + 1) (cleanRooted t) with
      | none =>
        rw [htree] at hshown
        simp [Imagescan.hardLinkLoop, entryOf, hlayer, ht, hshown]
      | some ref =>
        rw [htree] at hshown
        obtain ⟨target, hfound, rfl⟩ := hshown
        have hlt := tree_link_lt ho hb htree
        obtain ⟨b', hb'⟩ := Option.isSome_iff_exists.mp (bound_of_tree htree).2.2
        have hloop : Imagescan.hardLinkLoop img (fuel + 1) r (entryOf a (node r) (.link t))
            = Imagescan.hardLinkLoop img fuel target (entryOf a (node target) b') := by
          simp [Imagescan.hardLinkLoop, entryOf, hlayer, ht, hfound, h.get target b' hb']
        rw [Option.bind_some, hloop]
        exact ih target b' hb' (by omega)

theorem classify_eq_kind (f : Ref Bytes) :
    classify (.ok (a.head f) : Except ε Bytes) (a.readerAt f) = .ok (a.kind f) := by
  unfold Archive.kind classify
  by_cases hscript : shebang <+: a.head f
  · simp [hscript]
  · by_cases helf : a.head f = elfMag
    · rw [helf] at hscript
      cases a.readerAt f <;> simp [hscript, helf]
    · simp [hscript, helf]

theorem Indexes.classifyFile (h : Indexes ls a img node) (ho : Ordered cleanRooted ls)
    (hd : Destinations ls) {r : ρ} {b : Bound Bytes Bytes}
    (hb : bound cleanRooted ls (node r).layer (node r).path = some b)
    (hlayer : (node r).layer < ls.length) :
    Imagescan.classifyFile img r (entryOf a (node r) b)
      = .ok (a.kindOf (names cleanRooted ls (node r))) := by
  have hloop := h.hardLinkLoop ho hd img.layers r b hb (h.layers ▸ hlayer)
  have htarget : hardLinkTarget img r (entryOf a (node r) b)
      = Imagescan.hardLinkLoop img img.layers r (entryOf a (node r) b) := rfl
  unfold Imagescan.classifyFile
  rw [htarget]
  split at hloop
  · next f hnames =>
    obtain ⟨target, htarget, hbound⟩ := hloop
    simp only [htarget, hnames, Archive.kindOf, h.opens target f hbound, Except.bind,
      classify_eq_kind, Except.mapError]
  · next hnames =>
    obtain ⟨target, htarget⟩ := hloop
    simp only [htarget]
    cases hnode : names cleanRooted ls (node r) with
    | none => rfl
    | some found =>
      cases found with
      | file f => exact absurd hnode (hnames f)
      | other => rfl

/-! ## The list -/

/-- What `Executables` makes of a file. -/
def listed (a : Archive) (ls : List ImageLayer) (ref : Ref Bytes) : Option Executable :=
  if a.mode ref &&& anyExecBit = 0 then none
  else some ⟨ref.path, a.kindOf (names cleanRooted ls ref)⟩

theorem Indexes.scanFile (h : Indexes ls a img node) (ho : Ordered cleanRooted ls)
    (hd : Destinations ls) {r : ρ} (hmem : r ∈ img.allFiles) :
    Imagescan.scanFile img none r = .ok (listed a ls (node r)) := by
  obtain ⟨htree, hfile⟩ := (h.allFiles (node r)).mp ⟨r, hmem, rfl⟩
  obtain ⟨hlt, -, hsome⟩ := bound_of_tree htree
  obtain ⟨b, hb⟩ := Option.isSome_iff_exists.mp hsome
  have hmode : (entryOf a (node r) b).mode = some (a.mode (node r)) := by
    cases b <;> rfl
  unfold Imagescan.scanFile listed
  simp only [h.get r b hb, hmode, Option.getD_some, h.realPath]
  split
  · rfl
  · rw [h.classifyFile ho hd hb hlt]
    rfl

theorem scanFiles_eq {g : ρ → Option Executable} (n : Nat)
    (refs : List ρ) (h : ∀ ref ∈ refs, scanFile img none ref = .ok (g ref)) :
    scanFiles img (fun _ => none) n refs = .ok (refs.filterMap g) := by
  induction refs generalizing n with
  | nil => rfl
  | cons ref refs ih =>
    have hrest := ih (n + 1) fun r hr => h r (List.mem_cons_of_mem _ hr)
    simp only [scanFiles, h ref List.mem_cons_self, hrest, Bind.bind, Except.bind]
    cases hg : g ref with
    | none => simp [hg]
    | some x => simp [hg]

theorem listed_eq_some {ref : Ref Bytes} {x : Executable} :
    listed a ls ref = some x ↔ a.mode ref &&& anyExecBit ≠ 0 ∧
      x = ⟨ref.path, a.kindOf (names cleanRooted ls ref)⟩ := by
  unfold listed
  split
  · next h => simp [h]
  · next h => simp [h, eq_comm]

theorem pairwise_le_sortByPath (es : List Executable) :
    (es.insertionSort fun x y => x.path ≤ y.path).Pairwise fun x y => x.path ≤ y.path := by
  have : Std.Total fun x y : Executable => x.path ≤ y.path := ⟨fun x y => le_total _ _⟩
  have : IsTrans Executable fun x y => x.path ≤ y.path := ⟨fun _ _ _ => le_trans⟩
  exact List.pairwise_insertionSort _ es

section Compact

variable {α β : Type} [DecidableEq β] {key : α → β}

/-- What is left of a list was in it, and every key is left. -/
theorem mem_of_mem_compactBy {l : List α} {x : α} (h : x ∈ compactBy key l) : x ∈ l := by
  induction l generalizing x with
  | nil => exact h
  | cons y l ih =>
    rw [compactBy] at h
    cases hc : compactBy key l with
    | nil =>
      rw [hc] at h
      rw [List.mem_singleton.mp h]
      exact List.mem_cons_self
    | cons z l' =>
      rw [hc] at h
      have hrest : ∀ w ∈ z :: l', w ∈ l := fun w hw => ih (hc.symm ▸ hw)
      simp only at h
      split at h
      · rcases List.mem_cons.mp h with rfl | hx
        · exact List.mem_cons_self
        · exact List.mem_cons_of_mem y (hrest x (List.mem_cons_of_mem z hx))
      · rcases List.mem_cons.mp h with rfl | hx
        · exact List.mem_cons_self
        · exact List.mem_cons_of_mem y (hrest x hx)

theorem exists_key_compactBy (key : α → β) {l : List α} {x : α} (h : x ∈ l) :
    ∃ y ∈ compactBy key l, key y = key x := by
  induction l with
  | nil => cases h
  | cons y l ih =>
    rw [compactBy]
    cases hc : compactBy key l with
    | nil =>
      rcases List.mem_cons.mp h with rfl | hx
      · exact ⟨x, by simp, rfl⟩
      · obtain ⟨z, hz, -⟩ := ih hx
        rw [hc] at hz
        cases hz
    | cons z l' =>
      dsimp only
      rcases List.mem_cons.mp h with rfl | hx
      · split
        · exact ⟨x, List.mem_cons_self, rfl⟩
        · exact ⟨x, List.mem_cons_self, rfl⟩
      · obtain ⟨w, hw, hkey⟩ := ih hx
        rw [hc] at hw
        split
        · next hyz =>
          rcases List.mem_cons.mp hw with rfl | hw
          · exact ⟨y, List.mem_cons_self, hyz.trans hkey⟩
          · exact ⟨w, List.mem_cons_of_mem y hw, hkey⟩
        · exact ⟨w, List.mem_cons_of_mem y hw, hkey⟩

theorem mem_compactBy (key : α → β) {l : List α} (hl : ∀ x ∈ l, ∀ y ∈ l, key x = key y → x = y)
    {x : α} :
    x ∈ compactBy key l ↔ x ∈ l := by
  refine ⟨mem_of_mem_compactBy, fun h => ?_⟩
  obtain ⟨y, hy, hkey⟩ := exists_key_compactBy key h
  exact hl y (mem_of_mem_compactBy hy) x h hkey ▸ hy

theorem pairwise_lt_compactBy [LinearOrder β] {l : List α}
    (h : l.Pairwise fun x y => key x ≤ key y) :
    (compactBy key l).Pairwise fun x y => key x < key y := by
  induction l with
  | nil => exact .nil
  | cons x l ih =>
    obtain ⟨hx, hl⟩ := List.pairwise_cons.mp h
    have hrest := ih hl
    rw [compactBy]
    cases hc : compactBy key l with
    | nil => exact List.pairwise_singleton _ _
    | cons z l' =>
      rw [hc] at hrest
      obtain ⟨hz, hl'⟩ := List.pairwise_cons.mp hrest
      have hmem : z ∈ l := mem_of_mem_compactBy (hc ▸ List.mem_cons_self)
      dsimp only
      split
      · next hxz => exact List.pairwise_cons.mpr ⟨fun w hw => hxz ▸ hz w hw, hl'⟩
      · next hxz =>
        have hlt : key x < key z := lt_of_le_of_ne (hx z hmem) hxz
        refine List.pairwise_cons.mpr ⟨fun w hw => ?_, hrest⟩
        rcases List.mem_cons.mp hw with rfl | hw
        · exact hlt
        · exact hlt.trans (hz w hw)

end Compact

end

/-- **The executables are those of the running container.** Of an image of any layers, every path
that the image has as a file or a hard link with an execute bit is listed once, in the order of the
paths, and its kind is that of the file that the path names once all layers are extracted: a hard
link keeps the file of its layer when a later layer replaces or removes the destination. -/
theorem executables_runtime {ls : List ImageLayer} {a : Archive} {img : Image ρ ε}
    {node : ρ → Ref Bytes} (h : Indexes ls a img node) (ho : Ordered cleanRooted ls)
    (hd : Destinations ls) :
    ∃ es, executables img (fun _ => none) = .ok es ∧
      es.Pairwise (fun x y => x.path < y.path) ∧
      ∀ p kind, ⟨p, kind⟩ ∈ es ↔ ∃ ref, tree cleanRooted ls ls.length p = some ref ∧
        (bound cleanRooted ls ref.layer ref.path).any Bound.isFile = true ∧
        a.mode ref &&& anyExecBit ≠ 0 ∧ kind = a.kindOf (runtime cleanRooted ls ls.length p) := by
  let found := img.allFiles.filterMap fun r => listed a ls (node r)
  have hscan : scanFiles img (fun _ => none) 0 img.allFiles = .ok found :=
    scanFiles_eq 0 _ fun r hr => h.scanFile ho hd hr
  have hmem : ∀ x, x ∈ found.insertionSort (fun x y => x.path ≤ y.path) ↔ ∃ ref,
      tree cleanRooted ls ls.length ref.path = some ref ∧
        (bound cleanRooted ls ref.layer ref.path).any Bound.isFile = true ∧
        listed a ls ref = some x := by
    intro x
    rw [List.mem_insertionSort, List.mem_filterMap]
    constructor
    · rintro ⟨r, hr, hx⟩
      obtain ⟨htree, hfile⟩ := (h.allFiles (node r)).mp ⟨r, hr, rfl⟩
      exact ⟨node r, htree, hfile, hx⟩
    · rintro ⟨ref, htree, hfile, hx⟩
      obtain ⟨r, hr, rfl⟩ := (h.allFiles ref).mpr ⟨htree, hfile⟩
      exact ⟨r, hr, hx⟩
  -- a path is visible from one layer only, so it is listed with one kind
  have hone : ∀ x ∈ found.insertionSort (fun x y => x.path ≤ y.path),
      ∀ y ∈ found.insertionSort (fun x y => x.path ≤ y.path), x.path = y.path → x = y := by
    intro x hx y hy hpath
    obtain ⟨ref, htree, -, hlisted⟩ := (hmem x).mp hx
    obtain ⟨ref', htree', -, hlisted'⟩ := (hmem y).mp hy
    rw [(listed_eq_some.mp hlisted).2, (listed_eq_some.mp hlisted').2] at hpath
    have hpath : ref.path = ref'.path := hpath
    rw [hpath, htree'] at htree
    obtain rfl := Option.some.inj htree
    exact Option.some.inj (hlisted.symm.trans hlisted')
  refine ⟨_, ?_, pairwise_lt_compactBy (pairwise_le_sortByPath found), fun p kind => ?_⟩
  · unfold executables
    rw [hscan]
    rfl
  · rw [mem_compactBy Executable.path hone, hmem]
    constructor
    · rintro ⟨ref, htree, hfile, hlisted⟩
      obtain ⟨hmode, hx⟩ := listed_eq_some.mp hlisted
      obtain ⟨rfl, rfl⟩ := Executable.mk.inj hx
      refine ⟨ref, htree, hfile, hmode, ?_⟩
      rw [runtime_eq_tree ho, htree, Option.bind_some]
    · rintro ⟨ref, htree, hfile, hmode, rfl⟩
      have hpath := (bound_of_tree htree).2.1
      subst hpath
      refine ⟨ref, htree, hfile, listed_eq_some.mpr ⟨hmode, ?_⟩⟩
      rw [runtime_eq_tree ho, htree, Option.bind_some]

namespace Sample

def paths (ls : List ImageLayer) : List Bytes := (ls.flatMap fun l => l.adds.map Prod.fst).dedup

/-- An image with such an index. It fails with `e` on a reference that it does not have. -/
def indexed (ls : List ImageLayer) (a : Archive) (e : ε) (resolve : Bytes → Resolution ε) :
    Image (Ref Bytes) ε where
  layers := ls.length
  realPath := Ref.path
  allFiles := (paths ls).filterMap fun p =>
    (tree cleanRooted ls ls.length p).filter fun ref =>
      (bound cleanRooted ls ref.layer ref.path).any Bound.isFile
  get ref :=
    match bound cleanRooted ls ref.layer ref.path with
    | none => .error e
    | some b => .ok (entryOf a ref b)
  layerTree ref := some fun p =>
    match tree cleanRooted ls (ref.layer + 1) p with
    | none => .missing
    | some target => .node (some target)
  openReference ref :=
    match bound cleanRooted ls ref.layer ref.path with
    | some (.file f) => .ok { head := .ok (a.head f), readerAt := a.readerAt f }
    | _ => .error e
  resolve := resolve

theorem mem_paths {ls : List ImageLayer} {p : Bytes} {ref : Ref Bytes}
    (h : tree cleanRooted ls ls.length p = some ref) : p ∈ paths ls := by
  obtain ⟨-, hpath, hbound⟩ := bound_of_tree h
  subst hpath
  unfold bound at hbound
  cases hl : ls[ref.layer]? with
  | none => simp [hl] at hbound
  | some l =>
    rw [hl, Option.bind_some] at hbound
    have hmem := l.mem_adds_of_index hbound
    exact List.mem_dedup.mpr (List.mem_flatMap.mpr ⟨l, List.mem_of_getElem? hl, hmem⟩)

theorem indexes_indexed (ls : List ImageLayer) (a : Archive) (e : ε)
    (resolve : Bytes → Resolution ε) : Indexes ls a (indexed ls a e resolve) id where
  layers := rfl
  realPath _ := rfl
  allFiles ref := by
    simp only [indexed, List.mem_filterMap, Option.filter_eq_some_iff, id]
    constructor
    · rintro ⟨r, ⟨p, -, htree, hfile⟩, rfl⟩
      have hpath := (bound_of_tree htree).2.1
      subst hpath
      exact ⟨htree, hfile⟩
    · rintro ⟨htree, hfile⟩
      exact ⟨ref, ⟨ref.path, mem_paths htree, htree, hfile⟩, rfl⟩
  get r b hb := by
    have hb : bound cleanRooted ls r.layer r.path = some b := hb
    simp [indexed, hb]
  layerTree r t _ := by
    refine ⟨_, rfl, ?_⟩
    cases htree : tree cleanRooted ls ((id r : Ref Bytes).layer + 1) (cleanRooted t) with
    | none =>
      have htree : tree cleanRooted ls (r.layer + 1) (cleanRooted t) = none := htree
      simp [htree]
    | some ref =>
      have htree : tree cleanRooted ls (r.layer + 1) (cleanRooted t) = some ref := htree
      exact ⟨ref, by simp [htree], rfl⟩
  opens r f hb := by
    have hb : bound cleanRooted ls r.layer r.path = some (.file f) := hb
    simp [indexed, hb]

def pathA : Bytes := "/a".toUTF8.toList

def pathB : Bytes := "/b".toUTF8.toList

/-- A program, a hard link to it, and then a script in the place of the program. -/
def replaced : List ImageLayer :=
  [⟨fun _ => false, [(pathA, .file)]⟩, ⟨fun _ => false, [(pathB, .link "a".toUTF8.toList)]⟩,
    ⟨fun _ => false, [(pathA, .file)]⟩]

def replacedFiles : Archive where
  mode _ := 0o755
  head f := if f.layer = 0 then elfMag else shebang
  readerAt _ := none

theorem bound_replaced {n : Nat} {p t : Bytes}
    (h : bound cleanRooted replaced n p = some (.link t)) : n = 1 ∧ t = "a".toUTF8.toList := by
  match n with
  | 0 =>
    have hindex : bound cleanRooted replaced 0 p
        = Function.update (fun _ => none) pathA (some (.file ⟨0, pathA⟩)) p := rfl
    rw [hindex, Function.update_apply] at h
    split at h <;> simp at h
  | 1 =>
    have hindex : bound cleanRooted replaced 1 p
        = Function.update (fun _ => none) pathB (some (.link "a".toUTF8.toList)) p := rfl
    rw [hindex, Function.update_apply] at h
    split at h
    · exact ⟨rfl, (Bound.link.inj (Option.some.inj h)).symm⟩
    · exact absurd h (by simp)
  | 2 =>
    have hindex : bound cleanRooted replaced 2 p
        = Function.update (fun _ => none) pathA (some (.file ⟨2, pathA⟩)) p := rfl
    rw [hindex, Function.update_apply] at h
    split at h <;> simp at h
  | n + 3 => exact absurd h (by simp [bound, replaced])

/-- The link is listed as the program that it still is. -/
theorem executables_replaced : ∃ es,
    executables (indexed replaced replacedFiles () fun _ => .missing) (fun _ => none) = .ok es ∧
      ⟨pathA, .script⟩ ∈ es ∧ ⟨pathB, .program⟩ ∈ es := by
  have ho : Ordered cleanRooted replaced := by
    intro n p t h
    obtain ⟨rfl, rfl⟩ := bound_replaced h
    exact Option.isNone_iff_eq_none.mp (by decide +kernel)
  have hd : Destinations replaced := by
    intro n p t h
    obtain ⟨rfl, rfl⟩ := bound_replaced h
    decide +kernel
  obtain ⟨es, hes, -, hmem⟩ := executables_runtime
    (indexes_indexed replaced replacedFiles () fun _ => .missing) ho hd
  refine ⟨es, hes, (hmem _ _).mpr ⟨⟨2, pathA⟩, ?_, ?_, by decide, ?_⟩,
    (hmem _ _).mpr ⟨⟨1, pathB⟩, ?_, ?_, by decide, ?_⟩⟩
  all_goals decide +kernel

end Sample

/-! ## Links and snapshots -/

section

variable {img : Image ρ ε}

/-- Where a path leads through symbolic links, if it does. -/
def Image.linkTarget (img : Image ρ ε) (p : Bytes) : Option Bytes :=
  match img.resolve p with
  | .node true realPath => if realPath ≠ p then some realPath else none
  | _ => none

/-- The path can be looked up. -/
def Image.Resolves (img : Image ρ ε) (p : Bytes) : Prop := ∀ e, img.resolve p ≠ .error e

/-- A map with the path, if it leads somewhere. -/
def withLink (links : GoMap Bytes Bytes) (p : Bytes) : Option Bytes → GoMap Bytes Bytes
  | some target => links.insert p target
  | none => links

theorem resolveLink_eq {p : Bytes} (hp : img.Resolves p) (links : GoMap Bytes Bytes) :
    resolveLink img links p = .ok (withLink links p (img.linkTarget p)) := by
  unfold resolveLink Image.linkTarget
  cases hr : img.resolve p with
  | error e => exact absurd hr (hp e)
  | unresolvable => rfl
  | missing => rfl
  | node hasReference realPath =>
    cases hasReference with
    | false => rfl
    | true => by_cases hne : realPath = p <;> simp [hne, withLink]

theorem foldlM_resolveLink {ps : List Bytes} (h : ∀ p ∈ ps, img.Resolves p)
    (links : GoMap Bytes Bytes) :
    ps.foldlM (resolveLink img) links
      = .ok (ps.foldl (fun links p => withLink links p (img.linkTarget p)) links) :=
  foldlM_eq_foldl (fun p hp links => resolveLink_eq (h p hp) links) links

theorem resolves_of_resolveLinks {ps : List Bytes} {links links' : GoMap Bytes Bytes}
    (h : ps.foldlM (resolveLink img) links = .ok links') : ∀ p ∈ ps, img.Resolves p := by
  induction ps generalizing links with
  | nil => exact fun p hp => absurd hp (by simp)
  | cons q ps ih =>
    rw [List.foldlM_cons] at h
    cases hq : resolveLink img links q with
    | error e => simp [hq, Bind.bind, Except.bind] at h
    | ok links₁ =>
      rw [hq] at h
      intro p hp
      rcases List.mem_cons.mp hp with rfl | hp
      · intro e he
        simp [resolveLink, he] at hq
      · exact ih h p hp

theorem lookup_withLinks (ps : List Bytes) (links : GoMap Bytes Bytes) (p : Bytes) :
    (ps.foldl (fun links p => withLink links p (img.linkTarget p)) links).lookup p
      = if p ∈ ps then (img.linkTarget p).or (links.lookup p) else links.lookup p := by
  induction ps generalizing links with
  | nil => rfl
  | cons q ps ih =>
    rw [List.foldl_cons, ih]
    by_cases hpq : p = q
    · subst hpq
      cases img.linkTarget p <;> simp [withLink]
    · cases img.linkTarget q <;> simp [withLink, hpq]

theorem lookup_resolveLinks {ps : List Bytes} {links : GoMap Bytes Bytes}
    (h : resolveLinks img ps = .ok links) {p : Bytes} (hp : p ∈ ps) :
    links.lookup p = img.linkTarget p := by
  unfold resolveLinks at h
  rw [foldlM_resolveLink (resolves_of_resolveLinks h)] at h
  rw [← Except.ok.inj h, lookup_withLinks, if_pos hp]
  simp

theorem takeSnapshot_eq_ok {ctx : Nat → Option ε} {image : String} {lookup : List Bytes}
    {s : Snapshot} (h : takeSnapshot img ctx image lookup = .ok s) :
    s.image = image ∧ executables img ctx = .ok s.executables ∧
      (∀ p, p ∈ s.lookup ↔ p ∈ lookup) ∧
      ∀ p ∈ lookup, img.Resolves p ∧ s.links.lookup p = img.linkTarget p := by
  unfold takeSnapshot scan at h
  cases hes : executables img ctx with
  | error e => simp [hes, Bind.bind, Except.bind, Except.map] at h
  | ok es =>
    cases hlinks : resolveLinks img lookup with
    | error e => simp [hes, hlinks, Bind.bind, Except.bind, Except.map] at h
    | ok links =>
      simp only [hes, hlinks, Bind.bind, Except.bind, Except.map] at h
      obtain rfl := Except.ok.inj h
      refine ⟨rfl, rfl, fun p => ?_, fun p hp => ?_⟩
      · rw [mem_compactBy id fun _ _ _ _ h => h, sorted, List.mem_insertionSort]
      · exact ⟨resolves_of_resolveLinks hlinks p hp, lookup_resolveLinks hlinks hp⟩

theorem foldlM_resultLink_error {s : Snapshot} {ps : List Bytes} (h : ∃ p ∈ ps, p ∉ s.lookup)
    (links : GoMap Bytes Bytes) :
    ∃ p ∈ ps, p ∉ s.lookup ∧ ps.foldlM s.resultLink links = .error ⟨s.image, p⟩ := by
  induction ps generalizing links with
  | nil => exact absurd h (by simp)
  | cons q ps ih =>
    by_cases hq : q ∈ s.lookup
    · have hrest : ∃ p ∈ ps, p ∉ s.lookup := by
        obtain ⟨p, hp, hno⟩ := h
        rcases List.mem_cons.mp hp with rfl | hp
        · exact absurd hq hno
        · exact ⟨p, hp, hno⟩
      obtain ⟨links', hstep⟩ : ∃ links', s.resultLink links q = .ok links' := by
        unfold Snapshot.resultLink
        rw [if_neg (not_not.mpr hq)]
        cases s.links.lookup q <;> exact ⟨_, rfl⟩
      obtain ⟨p, hp, hno, herr⟩ := ih hrest links'
      refine ⟨p, List.mem_cons_of_mem _ hp, hno, ?_⟩
      rw [List.foldlM_cons, hstep]
      exact herr
    · refine ⟨q, List.mem_cons_self, hq, ?_⟩
      rw [List.foldlM_cons, Snapshot.resultLink, if_pos hq]
      rfl

/-- **A snapshot answers as the scan it was taken of.** For lookup paths of the snapshot, the result
is that of a scan of the image with these paths, and with any other path among them it is an
error. -/
theorem snapshot_result {ctx : Nat → Option ε} {image : String} {lookup : List Bytes}
    {s : Snapshot} (h : takeSnapshot img ctx image lookup = .ok s) (ps : List Bytes) :
    (ps ⊆ lookup → ∃ result, s.result ps = .ok result ∧ scan img ctx ps = .ok result) ∧
      (¬ ps ⊆ lookup → ∃ p ∈ ps, p ∉ lookup ∧ s.result ps = .error ⟨image, p⟩) := by
  obtain ⟨himage, hes, hlookup, hlinks⟩ := takeSnapshot_eq_ok h
  constructor
  · intro hsub
    have hresult : ps.foldlM s.resultLink ∅
        = .ok (ps.foldl (fun links p => withLink links p (img.linkTarget p)) ∅) := by
      refine foldlM_eq_foldl (fun p hp links => ?_) ∅
      unfold Snapshot.resultLink
      rw [if_neg (not_not.mpr ((hlookup p).mpr (hsub hp))), (hlinks p (hsub hp)).2]
      cases img.linkTarget p <;> rfl
    have hscan : resolveLinks img ps
        = .ok (ps.foldl (fun links p => withLink links p (img.linkTarget p)) ∅) :=
      foldlM_resolveLink (fun p hp => (hlinks p (hsub hp)).1) ∅
    refine ⟨{ executables := s.executables
              links := ps.foldl (fun links p => withLink links p (img.linkTarget p)) ∅ }, ?_, ?_⟩
    · rw [Snapshot.result, hresult]
      rfl
    · rw [scan, hes, hscan]
      rfl
  · intro hsub
    have hex : ∃ p ∈ ps, p ∉ s.lookup := by
      by_contra hall
      exact hsub fun p hp => by_contra fun hno =>
        hall ⟨p, hp, fun hmem => hno ((hlookup p).mp hmem)⟩
    obtain ⟨p, hp, hno, herr⟩ := foldlM_resultLink_error hex ∅
    refine ⟨p, hp, fun hmem => hno ((hlookup p).mpr hmem), ?_⟩
    rw [Snapshot.result, herr, himage]
    rfl

end

namespace Sample

def pathC : Bytes := "/c".toUTF8.toList

/-- The same image, with a symbolic link. -/
def linked : Image (Ref Bytes) Unit :=
  indexed replaced replacedFiles () fun p => if p = pathC then .node true pathA else .missing

/-- A snapshot with two lookup paths knows one of them, and not a third one. -/
theorem snapshot_result_linked : ∃ s,
    takeSnapshot linked (fun _ => none) "image" [pathC, pathB] = .ok s ∧
      (∃ result, s.result [pathC] = .ok result ∧ scan linked (fun _ => none) [pathC] = .ok result) ∧
      ∃ p ∈ [pathA], p ∉ [pathC, pathB] ∧ s.result [pathA] = .error ⟨"image", p⟩ := by
  cases h : takeSnapshot linked (fun _ => none) "image" [pathC, pathB] with
  | error e =>
    have hok : (takeSnapshot linked (fun _ => none) "image" [pathC, pathB]).isOk = true := by
      decide +kernel
    exact absurd hok (by simp [h, Except.isOk, Except.toBool])
  | ok s =>
    exact ⟨s, rfl, (snapshot_result h [pathC]).1 (by simp),
      (snapshot_result h [pathA]).2 (by decide +kernel)⟩

end Sample

end RuntimeEnforcer.Imagescan
