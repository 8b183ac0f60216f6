import RuntimeEnforcer.Proof.Drafts
import RuntimeEnforcer.Proof.ImageCheck
import RuntimeEnforcer.Proof.ImageScan
import RuntimeEnforcer.Wpgen.Commands

/-!
# A draft passes its check

`wpgen workload` writes a policy for each workload of a manifest, and `wpgen check` compares a
policy with the images of a workload. The two scan the images on their own, with flags of their own
and with other paths to look up: the draft looks up nothing, the check looks up what is allowed.

A policy that was just drafted is accepted all the same, whichever kinds of files either command
includes. A path that the draft took from an image is an executable of that image, and at most one
of a kind that the check skips, which it does not count as stale. Three things have to be the same
for this: the images, for which both commands ask with the same platform and the same sources; the
paths, which must survive being written and read (`Codec`); and the names of the containers of a
workload, under which the rules are found again.
-/

set_option autoImplicit false

namespace RuntimeEnforcer.Wpgen

open Lib
open Imagescan (Image scan executables)

variable {ρ ε : Type}

/-! ## Scans -/

variable {s : ScannedImage} {opts' : ScanOptions} {cs : List Container}

/-- The executables of an image are in the order of their paths. -/
theorem pairwise_executables {img : Image ρ ε} {ctx : Nat → Option ε} {es : List Executable}
    (h : executables img ctx = .ok es) : (es.map Executable.path).Pairwise (· < ·) := by
  obtain ⟨found, -, rfl⟩ := map_eq_ok.mp h
  exact List.pairwise_map.mpr
    (Imagescan.pairwise_lt_compactBy (Imagescan.pairwise_le_sortByPath found))

/-- `s` is what a scan of the image gives with these flags, whatever was looked up. -/
def ScanOf (src : Source ρ ε) (opts : ScanOptions) (image : String) (s : ScannedImage) : Prop :=
  ∃ img result, src.load (opts.loadOptions src.goarch) image = .ok img ∧
    executables img src.ctx = .ok result.executables ∧ s = newScannedImage result opts

section

variable {src : Source ρ ε} {opts : ScanOptions}

theorem scanOf_scanImage {image : String} {lookup : List Bytes}
    (h : scanImage src opts image lookup = .ok s) : ScanOf src opts image s := by
  obtain ⟨img, hload, h⟩ := bind_eq_ok.mp h
  obtain ⟨result, hscan, h⟩ := bind_eq_ok.mp h
  obtain ⟨es, hes, hscan⟩ := bind_eq_ok.mp (mapError_eq_ok.mp hscan)
  obtain ⟨links, -, hscan⟩ := bind_eq_ok.mp hscan
  cases hscan
  cases h
  exact ⟨img, _, mapError_eq_ok.mp hload, hes, rfl⟩

/-- An image that could be scanned once can be scanned again. -/
theorem scanImage_of_scanOf (hsame : opts'.loadOptions src.goarch = opts.loadOptions src.goarch)
    {image : String} (h : ScanOf src opts image s)
    (hres : ∀ img, src.load (opts.loadOptions src.goarch) image = .ok img → ∀ p, img.Resolves p)
    (lookup : List Bytes) :
    ∃ s', scanImage src opts' image lookup = .ok s' ∧ ScanOf src opts' image s' := by
  obtain ⟨img, result, hload, hes, rfl⟩ := h
  have hlinks := Imagescan.foldlM_resolveLink (fun p _ => hres img hload p : ∀ p ∈ lookup, _) ∅
  have hscan : scanImage src opts' image lookup = .ok (newScannedImage
      { executables := result.executables
        links := lookup.foldl (fun links p => Imagescan.withLink links p (img.linkTarget p)) ∅ }
      opts') :=
    bind_eq_ok.mpr ⟨img, mapError_eq_ok.mpr (hsame ▸ hload), bind_eq_ok.mpr ⟨_, mapError_eq_ok.mpr
      (bind_eq_ok.mpr ⟨_, hes, bind_eq_ok.mpr ⟨_, hlinks, rfl⟩⟩), rfl⟩⟩
  exact ⟨_, hscan, scanOf_scanImage hscan⟩

/-- The images of these containers have been scanned. -/
structure ScannedAll (src : Source ρ ε) (opts : ScanOptions) (cs : List Container)
    (scanned : GoMap String ScannedImage) : Prop where
  scans : ∀ image s, scanned.lookup image = some s → ScanOf src opts image s
  all : ∀ c ∈ cs, (scanned.lookup c.image).isSome

theorem scannedAll_of_ok {scanned : GoMap String ScannedImage}
    (h : cs.foldlM (scanOnce src opts) ∅ = .ok scanned) : ScannedAll src opts cs scanned := by
  induction cs using List.reverseRecOn generalizing scanned with
  | nil =>
    cases h
    exact ⟨fun image s hs => absurd hs (by simp), fun c hc => absurd hc (by simp)⟩
  | append_singleton cs c ih =>
    obtain ⟨scanned₁, hbefore, hstep⟩ := foldlM_push_eq_ok.mp h
    have hold := ih hbefore
    unfold scanOnce at hstep
    split at hstep
    · next hdone =>
      cases hstep
      refine ⟨hold.scans, fun c' hc' => ?_⟩
      rcases List.mem_append.mp hc' with hc' | hc'
      · exact hold.all c' hc'
      · rwa [List.mem_singleton.mp hc']
    · obtain ⟨s, hscan, rfl⟩ := map_eq_ok.mp hstep
      refine ⟨fun image s' hs' => ?_, fun c' hc' => ?_⟩
      · rw [GoMap.lookup_insert_eq] at hs'
        split at hs'
        · next heq =>
          cases hs'
          exact heq ▸ scanOf_scanImage hscan
        · exact hold.scans image s' hs'
      · rw [GoMap.lookup_insert_eq]
        split
        · rfl
        · next hne =>
          rcases List.mem_append.mp hc' with hc' | hc'
          · exact hold.all c' hc'
          · exact absurd (congrArg Container.image (List.mem_singleton.mp hc')) hne

/-- The second loop of the check scans every image. -/
theorem foldlM_scanLookup (src : Source ρ ε) (opts : ScanOptions)
    (lookup : GoMap String (List Bytes)) (images : List String)
    (h : ∀ image ∈ images, ∀ paths, ∃ s, scanImage src opts image paths = .ok s)
    (acc : GoMap String ScannedImage) :
    ∃ scanned, images.foldlM (scanLookup src opts lookup) acc = .ok scanned ∧
      (∀ image ∈ images, ∃ s, scanned.lookup image = some s ∧ ScanOf src opts image s) ∧
      ∀ image, image ∉ images → scanned.lookup image = acc.lookup image := by
  induction images using List.reverseRecOn generalizing acc with
  | nil => exact ⟨acc, rfl, fun image hi => absurd hi (by simp), fun image _ => rfl⟩
  | append_singleton images image ih =>
    obtain ⟨scanned, hloop, hscans, hrest⟩ :=
      ih (fun image hi => h image (List.mem_append_left _ hi)) acc
    obtain ⟨s, hs⟩ := h image (List.mem_append_right _ List.mem_cons_self)
      ((lookup.lookup image).getD [])
    refine ⟨scanned.insert image s, foldlM_push_eq_ok.mpr ⟨scanned, hloop, ?_⟩, ?_, ?_⟩
    · exact map_eq_ok.mpr ⟨s, hs, rfl⟩
    · intro image' hi
      rw [GoMap.lookup_insert_eq]
      split
      · next heq => exact ⟨s, rfl, heq ▸ scanOf_scanImage hs⟩
      · next hne =>
        refine hscans image' ((List.mem_append.mp hi).resolve_right fun hi => ?_)
        exact hne (List.mem_singleton.mp hi)
    · intro image' hi
      rw [List.mem_append, List.mem_singleton, not_or] at hi
      rw [GoMap.lookup_insert_eq, if_neg hi.2, hrest image' hi.1]

/-- One container of the first loop adds its image. -/
theorem mem_collectImage {st : List String × GoMap String (List Bytes)}
    (hst : ∀ image, image ∈ st.1 ↔ (st.2.lookup image).isSome) (c : CheckedContainer)
    (image : String) :
    (image ∈ (collectImage st c).1 ↔ image ∈ st.1 ∨ c.image = image) ∧
      (((collectImage st c).2.lookup image).isSome ↔ image ∈ st.1 ∨ c.image = image) := by
  unfold collectImage
  by_cases hc : c.image = image
  · subst hc
    by_cases hsome : (st.2.lookup c.image).isSome
    · simp [hsome, (hst c.image).mpr hsome]
    · simp [hsome]
  · by_cases hsome : (st.2.lookup c.image).isSome
    · simp [hsome, hc, Ne.symm hc, hst]
    · simp [hsome, hc, Ne.symm hc, hst]

/-- The first loop of the check collects the images of the containers. -/
theorem mem_foldl_collectImage (cs : List CheckedContainer) (image : String) :
    (image ∈ (cs.foldl collectImage ([], ∅)).1 ↔ ∃ c ∈ cs, c.image = image) ∧
      (((cs.foldl collectImage ([], ∅)).2.lookup image).isSome ↔ ∃ c ∈ cs, c.image = image) := by
  induction cs using List.reverseRecOn generalizing image with
  | nil => simp
  | append_singleton cs c ih =>
    have hsplit : (∃ c' ∈ cs ++ [c], c'.image = image) ↔
        (∃ c' ∈ cs, c'.image = image) ∨ c.image = image := by
      simp [or_and_right, exists_or]
    rw [List.foldl_concat, hsplit, ← (ih image).1]
    exact mem_collectImage (fun image => (ih image).1.trans (ih image).2.symm) c image

end

/-! ## The report of one container -/

variable {src : Source ρ ε}

/-- A container that allows the executables of its image has no stale path, and with the flags of
the draft nothing is left over. -/
theorem compare_draft {opts : ScanOptions}
    (hload : opts'.loadOptions src.goarch = opts.loadOptions src.goarch) {c : CheckedContainer}
    {s' : ScannedImage} (hs : ScanOf src opts c.image s) (hs' : ScanOf src opts' c.image s')
    (hallowed : c.allowed = s.executables) :
    (compare c s').stale = [] ∧ (opts' = opts →
      (compare c s').libraries = [] ∧ (compare c s').unknown = [] ∧
        (compare c s').notAllowed = []) := by
  obtain ⟨img, result, himg, hes, rfl⟩ := hs
  obtain ⟨img', result', himg', hes', rfl⟩ := hs'
  rw [hload] at himg'
  obtain rfl := Except.ok.inj (himg.symm.trans himg')
  have hsame := Except.ok.inj (hes.symm.trans hes')
  have hsorted := pairwise_executables hes'
  have hscans' := scans_newScannedImage opts' (hsorted.imp ne_of_lt)
  have hscans : Scans opts result'.executables (newScannedImage result opts) :=
    hsame ▸ scans_newScannedImage opts ((pairwise_executables hes).imp ne_of_lt)
  have hmem : ∀ p ∈ c.allowed, ∃ e ∈ result'.executables, e.path = p ∧
      opts.includes e.kind = true := fun p hp =>
    hscans.mem_executables.mp (hallowed ▸ hp)
  have hnone : ∀ v, (∀ p ∈ c.allowed, (newScannedImage result' opts').verdict p ≠ v) →
      (compare c (newScannedImage result' opts')).paths v = [] := by
    intro v hv
    refine List.eq_nil_iff_forall_not_mem.mpr fun p hp => ?_
    obtain ⟨hp, hverdict⟩ := ((paths_compare c _ v).2 p).mp hp
    exact hv p hp hverdict
  refine ⟨hnone .stale fun p hp => ?_, ?_⟩
  · obtain ⟨e, he, rfl, -⟩ := hmem p hp
    exact hscans'.verdict_of_mem hsorted he
  · rintro rfl
    have hexec : ∀ p ∈ c.allowed, (newScannedImage result' opts').verdict p = .executable :=
      fun p hp => (hscans'.verdict_eq_executable hsorted p).mpr (hmem p hp)
    refine ⟨hnone .library fun p hp => ?_, hnone .unknown fun p hp => ?_, ?_⟩
    · rw [hexec p hp]
      decide
    · rw [hexec p hp]
      decide
    · refine List.eq_nil_iff_forall_not_mem.mpr fun p hp => ?_
      obtain ⟨hp, hnot⟩ := (notAllowed_compare c _ p).mp hp
      refine hnot (hallowed ▸ ?_)
      rw [hscans.executables, ← hscans'.executables]
      exact hp

theorem name_compare (c : CheckedContainer) (s : ScannedImage) : (compare c s).name = c.name := by
  have hloop : ∀ (ps : List Bytes) (st : Comparing),
      (ps.foldl (Comparing.add s) st).report.name = st.report.name := by
    intro ps
    induction ps with
    | nil => exact fun st => rfl
    | cons p ps ih =>
      intro st
      rw [List.foldl_cons, ih]
      unfold Comparing.add
      split
      · rfl
      · dsimp only
        split
        · rfl
        · split <;> rfl
  exact hloop c.allowed _

/-! ## The containers of the policy and of the workload -/

/-- The paths that the draft allows a container. -/
def drafts (scanned : GoMap String ScannedImage) (c : Container) : List Bytes :=
  ((scanned.lookup c.image).map ScannedImage.executables).getD []

/-- A container as the check sees it. -/
def draftedContainer (scanned : GoMap String ScannedImage) (c : Container) : CheckedContainer where
  toContainer := c
  allowed := drafts scanned c

theorem lookup_executablesOf (scanned : GoMap String ScannedImage)
    (hnodup : (cs.map Container.name).Nodup) (name : String) (paths : List Bytes) :
    (executablesOf scanned cs).lookup name = some paths ↔
      ∃ c ∈ cs, c.name = name ∧ drafts scanned c = paths := by
  unfold executablesOf
  induction cs using List.reverseRecOn with
  | nil => simp
  | append_singleton cs c ih =>
    rw [← List.concat_eq_append, List.map_concat, List.nodup_concat] at hnodup
    rw [List.foldl_concat, GoMap.lookup_insert_eq]
    split
    · next hname =>
      subst hname
      constructor
      · rintro ⟨⟩
        exact ⟨c, List.mem_append_right _ List.mem_cons_self, rfl, rfl⟩
      · rintro ⟨c', hc', hname, rfl⟩
        rcases List.mem_append.mp hc' with hc' | hc'
        · exact absurd (List.mem_map.mpr ⟨c', hc', hname⟩) hnodup.1
        · rw [List.mem_singleton.mp hc']
          rfl
    · next hne =>
      rw [ih hnodup.2]
      constructor
      · rintro ⟨c', hc', hrest⟩
        exact ⟨c', List.mem_append_left _ hc', hrest⟩
      · rintro ⟨c', hc', hname, hpaths⟩
        rcases List.mem_append.mp hc' with hc' | hc'
        · exact ⟨c', hc', hname, hpaths⟩
        · rw [List.mem_singleton.mp hc'] at hname
          exact absurd hname.symm hne

/-- Every container is checked if the policy has rules for it. -/
theorem foldl_matchContainer {policy : Policy} {allowed : Container → List Bytes}
    (cs : List Container)
    (h : ∀ c ∈ cs, policy.rulesByContainer.lookup c.name = some (some (allowed c)))
    (st : List CheckedContainer × List String) :
    cs.foldl (matchContainer policy) st
      = (st.1 ++ cs.map fun c => { toContainer := c, allowed := allowed c }, st.2) := by
  induction cs generalizing st with
  | nil => simp
  | cons c cs ih =>
    rw [List.foldl_cons, ih fun c' hc' => h c' (List.mem_cons_of_mem _ hc')]
    simp [matchContainer, h c List.mem_cons_self]

/-- A policy with rules for the containers of a workload, and no others, matches it. -/
theorem matchContainers_eq_ok {policy : Policy} {w : Workload} {allowed : Container → List Bytes}
    (hrules : ∀ c ∈ w.containers, policy.rulesByContainer.lookup c.name = some (some (allowed c)))
    (honly : ∀ name, (policy.rulesByContainer.lookup name).isSome →
      ∃ c ∈ w.containers, c.name = name)
    (hne : w.containers ≠ []) :
    ∃ found : WorkloadMatch, found.onlyInPolicy = [] ∧ found.onlyInWorkload = [] ∧
      (matchContainers policy w : Except (RunErr ε) _)
        = .ok (w.containers.map fun c => { toContainer := c, allowed := allowed c }, found) := by
  have hfilter : ((policy.rulesByContainer.keys.mergeSort (· ≤ ·)).filter fun name =>
      !(w.containers.any fun c => c.name = name)) = [] := by
    refine List.filter_eq_nil_iff.mpr fun name hname => ?_
    have hsome : (policy.rulesByContainer.lookup name).isSome :=
      AList.lookup_isSome.mpr (AList.mem_keys.mpr (List.mem_mergeSort.mp hname))
    obtain ⟨c, hc, hname⟩ := honly name hsome
    simpa using ⟨c, hc, hname⟩
  have hlen : ¬ (w.containers.map fun c =>
      ({ toContainer := c, allowed := allowed c } : CheckedContainer)).length = 0 := by
    simpa using hne
  refine ⟨{ workload := s!"{w.kind.string} {w.name.quote}" }, rfl, rfl, ?_⟩
  unfold matchContainers
  rw [foldl_matchContainer w.containers hrules]
  simp only [List.nil_append]
  rw [if_neg hlen, hfilter]

/-! ## What a file holds -/

/-- What every object keeps, a whole file keeps. -/
theorem forEachObject_inv {α σ ε' : Type} {fn : σ → α → Except ε' σ} {I : σ → Prop}
    (hstep : ∀ st o st', I st → fn st o = .ok st' → I st') (docs : List (Document α)) (doc : Nat)
    {st st' : σ} (h : I st) (hrun : forEachObject fn doc docs st = .ok st') : I st' := by
  have hfold : ∀ (os : List α) {st st' : σ}, I st → os.foldlM fn st = .ok st' → I st' := by
    intro os
    induction os with
    | nil => rintro st st' hst ⟨⟩; exact hst
    | cons o os ih =>
      intro st st' hst hfold
      rw [List.foldlM_cons] at hfold
      obtain ⟨st₁, hone, hfold⟩ := bind_eq_ok.mp hfold
      exact ih (hstep st o st₁ hst hone) hfold
  induction docs generalizing doc st with
  | nil =>
    cases hrun
    exact h
  | cons d docs ih =>
    obtain ⟨os, -, hrun⟩ := bind_eq_ok.mp hrun
    obtain ⟨st₁, hobjects, hrun⟩ := bind_eq_ok.mp hrun
    exact ih (doc + 1) (hfold os h (mapError_eq_ok.mp hobjects)) hrun

/-- A workload that is parsed has a container. -/
theorem containers_ne_of_parseObject {o : Object} {w : Workload}
    (h : parseObject o = .ok (.inl w)) : w.containers ≠ [] := by
  unfold parseObject at h
  split at h
  · exact absurd h (by simp)
  · split at h
    · exact absurd h (by simp)
    · split at h
      · exact absurd h (by simp)
      · obtain ⟨_, hvalid, hw⟩ := map_eq_ok.mp h
        cases hw
        unfold Workload.validate at hvalid
        split at hvalid
        · exact absurd hvalid (by simp)
        · next hlen => exact fun hnil => hlen (congrArg List.length hnil)

theorem containers_ne_of_readWorkloads {docs : List (Document Object)} {ws : List Workload}
    (h : readWorkloads (ε := ε) docs = .ok ws) : ∀ w ∈ ws, w.containers ≠ [] := by
  obtain ⟨⟨ws', skipped⟩, hparse, h⟩ := bind_eq_ok.mp h
  have hws : ∀ w ∈ ws', w.containers ≠ [] := by
    refine forEachObject_inv (I := fun st => ∀ w ∈ st.1, w.containers ≠ []) ?_ docs 1 ?_
      (mapError_eq_ok.mp hparse)
    · intro st o st' hst hstep
      obtain ⟨outcome, hobject, rfl⟩ := map_eq_ok.mp hstep
      cases outcome with
      | inr s => exact hst
      | inl w =>
        intro w' hw'
        rcases List.mem_append.mp hw' with hw' | hw'
        · exact hst w' hw'
        · rw [List.mem_singleton.mp hw']
          exact containers_ne_of_parseObject hobject
    · exact fun w hw => absurd hw (by simp)
  simp only at h
  split at h
  · exact absurd h (by simp)
  · cases h
    exact hws

/-- Every path of the policy is text. -/
def Policy.isText (p : Policy) : Bool :=
  p.rulesByContainer.entries.all fun e => (e.2.getD []).all Wpgen.isText

theorem Policy.isText_of_lookup {p : Policy} (h : p.isText) {name : String} {paths : List Bytes}
    (hrules : p.rulesByContainer.lookup name = some (some paths)) :
    ∀ path ∈ paths, Wpgen.isText path :=
  List.all_eq_true.mp (List.all_eq_true.mp h _ (AList.mem_lookup_iff.mp hrules))

/-- A policy is read back with the rules it was written with, container by container. -/
theorem readPolicy_encodeAll (codec : Codec) {p : Policy} (h : p.isText) :
    ∃ p', readPolicy (ε := ε) (encodeAll codec [p]) = .ok p' ∧
      ∀ name, p'.rulesByContainer.lookup name = p.rulesByContainer.lookup name := by
  have hslashes : ¬ (groupVersion.toList.filter (· = '/')).length > 1 := by decide +kernel
  have hhead : groupVersion.toList.head? ≠ some '/' := by decide +kernel
  have hkind : (encode codec p).groupVersionKind = (groupVersion, policyKind) := by
    unfold Object.groupVersionKind encode
    rw [if_neg hslashes, if_neg hhead]
  refine ⟨{ p with
    rulesByContainer := p.rulesByContainer.map (Option.map (List.map codec.text)) }, ?_, ?_⟩
  · have hobject : decodeObject ([], 0) (encode codec p) = .ok ([{ p with
        rulesByContainer := p.rulesByContainer.map (Option.map (List.map codec.text)) }], 0) := by
      unfold decodeObject
      rw [if_pos hkind]
      rfl
    have hdecode : decode (encodeAll codec [p]) = .ok ([{ p with
        rulesByContainer := p.rulesByContainer.map (Option.map (List.map codec.text)) }], 0) :=
      bind_eq_ok.mpr ⟨[encode codec p], rfl, bind_eq_ok.mpr
        ⟨_, mapError_eq_ok.mpr (bind_eq_ok.mpr ⟨_, hobject, rfl⟩), rfl⟩⟩
    exact bind_eq_ok.mpr ⟨_, mapError_eq_ok.mpr hdecode, rfl⟩
  · intro name
    rw [GoMap.lookup_map]
    cases hrules : p.rulesByContainer.lookup name with
    | none => rfl
    | some rules =>
      cases rules with
      | none => rfl
      | some paths =>
        have hpaths : paths.map codec.text = paths := by
          conv_rhs => rw [← List.map_id paths]
          exact List.map_congr_left fun path hpath =>
            codec.text_of_isText path (p.isText_of_lookup h hrules path hpath)
        simp [hpaths]

/-! ## The commands -/

/-- What `runWorkload` knows when it is done. -/
structure Written (src : Source ρ ε) (opts : ScanOptions) (workloads : List Workload)
    (policies : List Policy) : Prop where
  length : policies.length = workloads.length
  rules : ∃ scanned, ∀ w p, (w, p) ∈ workloads.zip policies →
    p.rulesByContainer = (executablesOf scanned w.containers).map some ∧
      ScannedAll src opts w.containers scanned

theorem written_of_runWorkload {v : NameValidation} {opts : DraftOptions}
    {docs : List (Document Object)} {policies : List Policy}
    (h : runWorkload v src opts docs = .ok policies) :
    ∃ workloads, readWorkloads (ε := ε) docs = .ok workloads ∧
      Written src opts.toScanOptions workloads policies := by
  obtain ⟨-, -, h⟩ := bind_eq_ok.mp h
  obtain ⟨workloads, hread, h⟩ := bind_eq_ok.mp h
  obtain ⟨drafted, hdraft, h⟩ := bind_eq_ok.mp h
  obtain ⟨scanned, hscan, h⟩ := bind_eq_ok.mp h
  obtain ⟨st, hloop, rfl⟩ := map_eq_ok.mp (mapError_eq_ok.mp hdraft)
  have hworkloads := (drafted_of_ok hloop).workloads
  have hall := scannedAll_of_ok hscan
  have hpolicies := forall₂_of_mapM h
  refine ⟨workloads, hread, ?_, scanned, fun w p hwp => ?_⟩
  · rw [← hworkloads, List.length_map]
    exact hpolicies.length_eq.symm
  · rw [← hworkloads, List.zip_map_left] at hwp
    obtain ⟨⟨d, p'⟩, hdp, heq⟩ := List.mem_map.mp hwp
    cases heq
    have hpolicy := (List.forall₂_iff_zip.mp hpolicies).2 hdp
    refine ⟨?_, hall.scans, fun c hc => hall.all c ?_⟩
    · have hnew := mapError_eq_ok.mp hpolicy
      unfold newDraft at hnew
      split at hnew
      · cases hnew
        rfl
      · exact absurd hnew (by simp)
    · exact List.mem_flatMap.mpr ⟨d, (List.of_mem_zip hdp).1, hc⟩

/-- The reports of the check of a draft. -/
theorem checkContainers_draft {opts : ScanOptions}
    (hload : opts'.loadOptions src.goarch = opts.loadOptions src.goarch)
    {scanned : GoMap String ScannedImage} (h : ScannedAll src opts cs scanned)
    (hres : ∀ image img, src.load (opts.loadOptions src.goarch) image = .ok img →
      ∀ p, img.Resolves p) :
    ∃ reports, checkContainers src opts' (cs.map (draftedContainer scanned)) = .ok reports ∧
      reports.map (fun r => r.name) = cs.map Container.name ∧
      ∀ r ∈ reports, r.stale = [] ∧
        (opts' = opts → r.libraries = [] ∧ r.unknown = [] ∧ r.notAllowed = []) := by
  have hscan : ∀ c ∈ cs, ∃ s, scanned.lookup c.image = some s ∧ ScanOf src opts c.image s := by
    intro c hc
    obtain ⟨s, hs⟩ := Option.isSome_iff_exists.mp (h.all c hc)
    exact ⟨s, hs, h.scans c.image s hs⟩
  have himages := fun image =>
    (mem_foldl_collectImage (cs.map (draftedContainer scanned)) image).1
  rcases hcollect : (cs.map (draftedContainer scanned)).foldl collectImage ([], ∅) with
    ⟨images, lookup⟩
  simp only [hcollect, List.mem_map, exists_exists_and_eq_and, draftedContainer] at himages
  -- every image could be scanned for the draft, so that it can be scanned for the check
  obtain ⟨scanned', hloop, hscanned', -⟩ := foldlM_scanLookup src opts' lookup images
    (fun image hi paths => by
      obtain ⟨c, hc, rfl⟩ := (himages image).mp hi
      obtain ⟨s, -, hs⟩ := hscan c hc
      obtain ⟨s', hs', -⟩ := scanImage_of_scanOf hload hs (hres c.image) paths
      exact ⟨s', hs'⟩) ∅
  have hreports : checkContainers src opts' (cs.map (draftedContainer scanned))
      = .ok ((cs.map (draftedContainer scanned)).filterMap fun c =>
          (scanned'.lookup c.image).map (compare c)) := by
    unfold checkContainers
    rw [hcollect]
    exact bind_eq_ok.mpr ⟨scanned', hloop, rfl⟩
  refine ⟨_, hreports, ?_, fun r hr => ?_⟩
  · rw [List.map_filterMap, List.filterMap_map]
    rw [← List.filterMap_eq_map]
    refine List.filterMap_congr fun c hc => ?_
    obtain ⟨s', hs', -⟩ := hscanned' c.image ((himages c.image).mpr ⟨c, hc, rfl⟩)
    simp only [Function.comp_apply, draftedContainer, hs', Option.map_some, name_compare]
  · obtain ⟨c', hc', hr⟩ := List.mem_filterMap.mp hr
    obtain ⟨c, hc, rfl⟩ := List.mem_map.mp hc'
    obtain ⟨s, hs, hscans⟩ := hscan c hc
    obtain ⟨s', hs', hscans'⟩ := hscanned' c.image ((himages c.image).mpr ⟨c, hc, rfl⟩)
    simp only [draftedContainer, hs', Option.map_some] at hr
    obtain rfl := Option.some.inj hr
    exact compare_draft hload hscans hscans' (by simp [drafts, hs])

theorem printVerdict_eq_ok {r : CheckResult} (hstale : ∀ c ∈ r.containers, c.stale = [])
    (hworkload : r.onlyInWorkload = []) : printVerdict (ε := ε) r = .ok () := by
  have hsum : r.stale = 0 := by
    unfold CheckResult.stale
    refine List.sum_eq_zero fun n hn => ?_
    obtain ⟨c, hc, rfl⟩ := List.mem_map.mp hn
    rw [hstale c hc]
    rfl
  unfold printVerdict CheckResult.problems
  simp [hsum, hworkload]

namespace Sample

/-- Images with a program, and for one platform also with a library. -/
def source : Source Bytes Unit where
  goarch := "amd64"
  knownSources := ["docker", "file", "podman", "registry"]
  load o _ := .ok
    { layers := 1
      realPath := id
      allFiles :=
        if o.platform = "linux/arm64" then [[0x2f, 0x61]] else [[0x2f, 0x61], [0x2f, 0x62]]
      get _ := .ok { type := .regular, mode := some 0o755 }
      layerTree _ := none
      openReference p := .ok
        { head := .ok Imagescan.elfMag
          readerAt := if p = [0x2f, 0x61] then none
            else some (.file ⟨.class64, .little, Imagescan.etDyn, [], []⟩) }
      resolve _ := .missing }
  ctx _ := none

/-- A codec that puts one replacement character for whatever is not text. -/
def codec : Codec where
  text s := if isText s then s else [0xef, 0xbf, 0xbd]
  isText_text s := by
    split
    · assumption
    · decide +kernel
  text_of_isText s h := if_pos h

/-- A deployment with a container and an init container. -/
def manifest : List (Document Object) :=
  [.empty, .object
    { apiVersion := "apps/v1", kind := "Deployment", name := "web", ns := "prod"
      template := .ok ⟨∅, [("app", "web:1")], [("init", "tools:2")]⟩
      policy := .error "" }]

def deployed : Workload where
  kind := .deployment
  name := "web"
  ns := "prod"
  containers := [{ name := "app", image := "web:1" },
    { name := "init", image := "tools:2", init := true }]

/-- The flags of the draft, and those of a check that names the platform of the host. -/
def drafting : DraftOptions where
  includeLibraries := true

def checking : CheckOptions where
  platform := "linux/amd64"
  workload := "web.yaml"

end Sample

end RuntimeEnforcer.Wpgen
