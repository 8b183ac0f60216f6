import Mathlib.Data.List.Induction
import RuntimeEnforcer.Wpgen.ImageCheck

/-!
# Every allowed path is classified once

`compare` looks a path up twice: in the sorted list of the executables that count, and in the map of
the others. Together the two hold what the scan found, each executable in one of them
(`Scans.verdict_of_mem`, `Scans.verdict_of_absent`). The loop then puts each path, when it meets it
for the first time, on the list that the lookup names, and the report says of every allowed path
what the scan found there (`compare_classifies`).
-/

set_option autoImplicit false

namespace RuntimeEnforcer.Wpgen

open Lib

/-! ## The two halves of a scan -/

variable {s : ScannedImage}

/-- The image holds these executables, those that count in the list and the others in the map. -/
structure Scans (opts : ScanOptions) (es : List Executable) (s : ScannedImage) : Prop where
  executables : s.executables = (es.filter fun e => opts.includes e.kind).map Executable.path
  skipped : ∀ p k, s.skipped.lookup p = some k ↔ ⟨p, k⟩ ∈ es ∧ opts.includes k = false

theorem Scans.add {opts : ScanOptions} {es : List Executable} {e : Executable} (h : Scans opts es s)
    (hnew : e.path ∉ es.map Executable.path) : Scans opts (es ++ [e]) (s.add opts e) := by
  have hfresh : ∀ k, ⟨e.path, k⟩ ∉ es := fun k hk => hnew (List.mem_map.mpr ⟨_, hk, rfl⟩)
  unfold ScannedImage.add
  split
  · next hin =>
    refine ⟨?_, fun p k => ?_⟩
    · simp [h.executables, hin]
    · rw [h.skipped, List.mem_append, List.mem_singleton]
      refine ⟨fun hk => ⟨.inl hk.1, hk.2⟩, ?_⟩
      rintro ⟨hk | rfl, hout⟩
      · exact ⟨hk, hout⟩
      · exact absurd hin (by simp [hout])
  · next hout =>
    refine ⟨?_, fun p k => ?_⟩
    · simp [h.executables, hout]
    · rw [GoMap.lookup_insert_eq, List.mem_append, List.mem_singleton]
      split
      · next hp =>
        subst hp
        constructor
        · rintro ⟨⟩
          exact ⟨.inr rfl, by simpa using hout⟩
        · rintro ⟨hk | hk, _⟩
          · exact absurd hk (hfresh k)
          · rw [← hk]
      · next hp =>
        rw [h.skipped]
        refine ⟨fun hk => ⟨.inl hk.1, hk.2⟩, ?_⟩
        rintro ⟨hk | rfl, hk'⟩
        · exact ⟨hk, hk'⟩
        · exact absurd rfl hp

theorem scans_newScannedImage {result : Result} (opts : ScanOptions)
    (hnodup : (result.executables.map Executable.path).Nodup) :
    Scans opts result.executables (newScannedImage result opts) := by
  unfold newScannedImage
  generalize result.executables = es at hnodup
  induction es using List.reverseRecOn with
  | nil => exact ⟨rfl, fun p k => by simp⟩
  | append_singleton es e ih =>
    rw [← List.concat_eq_append, List.map_concat, List.nodup_concat] at hnodup
    rw [List.foldl_concat]
    exact (ih hnodup.2).add hnodup.1

/-! ## One path -/

variable {p : Bytes}

/-- The four lists of allowed paths. -/
inductive Verdict
  | executable
  | library
  | unknown
  | stale
  deriving DecidableEq

def ContainerReport.paths (r : ContainerReport) : Verdict → List Bytes
  | .executable => r.executables
  | .library => r.libraries
  | .unknown => r.unknown
  | .stale => r.stale

/-- The list a path goes to. -/
def ScannedImage.verdict (s : ScannedImage) (p : Bytes) : Verdict :=
  if (binarySearch s.executables p).2 then .executable
  else
    match (s.skipped.lookup p).getD Kind.zero with
    | .library => .library
    | .unknown => .unknown
    | .program | .script | .other _ _ => .stale

section Lookup

variable {opts : ScanOptions} {es : List Executable} {s : ScannedImage}

variable (h : Scans opts es s)

include h

theorem Scans.mem_executables :
    p ∈ s.executables ↔ ∃ e ∈ es, e.path = p ∧ opts.includes e.kind = true := by
  rw [h.executables, List.mem_map]
  constructor
  · rintro ⟨e, he, rfl⟩
    exact ⟨e, List.mem_of_mem_filter he, rfl, (List.mem_filter.mp he).2⟩
  · rintro ⟨e, he, rfl, hin⟩
    exact ⟨e, List.mem_filter.mpr ⟨he, hin⟩, rfl⟩

variable (hsorted : (es.map Executable.path).Pairwise (· < ·))

include hsorted

theorem Scans.pairwise_executables : s.executables.Pairwise (· < ·) := by
  rw [h.executables]
  exact hsorted.sublist (List.filter_sublist.map _)

theorem Scans.verdict_eq_executable (p : Bytes) :
    s.verdict p = .executable ↔ ∃ e ∈ es, e.path = p ∧ opts.includes e.kind = true := by
  rw [← h.mem_executables, ← binarySearch_found ((h.pairwise_executables hsorted).imp le_of_lt) p,
    ScannedImage.verdict]
  split
  · next hfound => exact iff_of_true rfl hfound
  · next hfound =>
    refine iff_of_false (fun habs => ?_) hfound
    split at habs <;> cases habs

theorem Scans.verdict_of_absent (habsent : ∀ e ∈ es, e.path ≠ p) : s.verdict p = .stale := by
  have hfound : (binarySearch s.executables p).2 ≠ true := by
    rw [ne_eq, binarySearch_found ((h.pairwise_executables hsorted).imp le_of_lt) p,
      h.mem_executables]
    rintro ⟨e, he, hp, _⟩
    exact habsent e he hp
  have hskipped : s.skipped.lookup p = none := by
    refine Option.eq_none_iff_forall_ne_some.mpr fun k hk => ?_
    exact habsent ⟨p, k⟩ ((h.skipped p k).mp hk).1 rfl
  rw [ScannedImage.verdict, if_neg hfound, hskipped]
  rfl

theorem Scans.verdict_of_mem {e : Executable} (he : e ∈ es) : s.verdict e.path ≠ .stale := by
  cases hin : opts.includes e.kind with
  | true =>
    rw [(h.verdict_eq_executable hsorted e.path).mpr ⟨e, he, rfl, hin⟩]
    decide
  | false =>
    -- only libraries and files of unknown kind are left out
    have hskipped := (h.skipped e.path e.kind).mpr ⟨he, hin⟩
    rw [ScannedImage.verdict, hskipped, Option.getD_some]
    cases hkind : e.kind with
    | library =>
      dsimp only
      split <;> decide
    | unknown =>
      dsimp only
      split <;> decide
    | program => rw [hkind] at hin; cases hin
    | script => rw [hkind] at hin; cases hin
    | other value hvalue => rw [hkind] at hin; cases hin

theorem Scans.verdict_eq_stale (p : Bytes) : s.verdict p = .stale ↔ ∀ e ∈ es, e.path ≠ p := by
  refine ⟨fun hstale e he hp => ?_, h.verdict_of_absent hsorted⟩
  exact h.verdict_of_mem hsorted he (hp ▸ hstale)

end Lookup

/-! ## All paths -/

variable {st : Comparing} {ps : List Bytes}

/-- The state of the loop after these paths. -/
structure Comparing.After (s : ScannedImage) (ps : List Bytes) (st : Comparing) : Prop where
  met : ∀ p, (st.met.lookup p).getD false = true ↔ p ∈ ps
  nodup : ∀ v, (st.report.paths v).Nodup
  paths : ∀ v p, p ∈ st.report.paths v ↔ p ∈ ps ∧ s.verdict p = v
  links : ∀ p, (st.report.links.lookup p).isSome = true → p ∈ st.report.paths .stale

theorem Comparing.add_new (hnew : (st.met.lookup p).getD false = false) :
    (st.add s p).met = st.met.insert p true ∧
      (∀ v, (st.add s p).report.paths v =
        st.report.paths v ++ if s.verdict p = v then [p] else []) ∧
      ∀ q, ((st.add s p).report.links.lookup q).isSome = true →
        (st.report.links.lookup q).isSome = true ∨ q = p ∧ s.verdict p = .stale := by
  unfold Comparing.add ScannedImage.verdict
  rw [if_neg (by simp [hnew])]
  split
  · refine ⟨rfl, fun v => ?_, fun q hq => .inl hq⟩
    cases v <;> simp [ContainerReport.paths]
  · generalize (s.skipped.lookup p).getD Kind.zero = kind
    cases kind with
    | library | unknown =>
      refine ⟨rfl, fun v => ?_, fun q hq => .inl hq⟩
      cases v <;> simp [ContainerReport.paths]
    | program | script | other =>
      refine ⟨rfl, fun v => ?_, fun q hq => ?_⟩
      · cases v <;> simp [ContainerReport.paths]
      · -- only a stale path can add a link, and only its own
        dsimp only at hq
        split at hq
        · rw [GoMap.lookup_insert_eq] at hq
          split at hq
          · next heq => exact .inr ⟨heq, rfl⟩
          · exact .inl hq
        · exact .inl hq

theorem Comparing.After.add_met (h : Comparing.After s ps st)
    (hmet : (st.met.lookup p).getD false = true) : Comparing.After s (ps ++ [p]) (st.add s p) := by
  have hp := (h.met p).mp hmet
  have hmem : ∀ q, q ∈ ps ++ [p] ↔ q ∈ ps := by
    intro q
    rw [List.mem_append, List.mem_singleton]
    exact ⟨fun hq => hq.elim id fun heq => heq ▸ hp, .inl⟩
  rw [Comparing.add, if_pos hmet]
  exact ⟨fun q => by rw [hmem, h.met], h.nodup, fun v q => by rw [hmem, h.paths], h.links⟩

theorem Comparing.After.add_unmet (h : Comparing.After s ps st)
    (hmet : (st.met.lookup p).getD false = false) : Comparing.After s (ps ++ [p]) (st.add s p) := by
  have hp : p ∉ ps := fun hp => by
    rw [(h.met p).mpr hp] at hmet
    cases hmet
  obtain ⟨hmet', hpaths, hlinks⟩ := Comparing.add_new (s := s) hmet
  refine ⟨fun q => ?_, fun v => ?_, fun v q => ?_, fun q hq => ?_⟩
  · rw [hmet', GoMap.lookup_insert_eq, List.mem_append, List.mem_singleton]
    split
    · next heq => simp [heq]
    · next hne => simp [h.met, hne]
  · rw [hpaths]
    split
    · rw [← List.concat_eq_append]
      exact (h.nodup v).concat fun hmem => hp ((h.paths v p).mp hmem).1
    · rw [List.append_nil]
      exact h.nodup v
  · rw [hpaths, List.mem_append, h.paths, List.mem_append, List.mem_singleton, or_and_right]
    refine or_congr_right ?_
    by_cases hv : s.verdict p = v
    · rw [if_pos hv, List.mem_singleton]
      exact ⟨fun heq => ⟨heq, heq ▸ hv⟩, And.left⟩
    · rw [if_neg hv]
      exact iff_of_false List.not_mem_nil fun ⟨heq, hqv⟩ => hv (heq ▸ hqv)
  · rw [hpaths, List.mem_append]
    rcases hlinks q hq with hold | ⟨rfl, hstale⟩
    · exact .inl (h.links q hold)
    · rw [if_pos hstale]
      exact .inr (List.mem_singleton_self q)

theorem Comparing.After.add (h : Comparing.After s ps st) (p : Bytes) :
    Comparing.After s (ps ++ [p]) (st.add s p) := by
  cases hmet : (st.met.lookup p).getD false with
  | true => exact h.add_met hmet
  | false => exact h.add_unmet hmet

theorem Comparing.after_loop (s : ScannedImage) (c : CheckedContainer) (ps : List Bytes) :
    Comparing.After s ps
      (ps.foldl (Comparing.add s) { report := { toCheckedContainer := c } }) := by
  induction ps using List.reverseRecOn with
  | nil =>
    refine ⟨fun p => by simp, fun v => ?_, fun v p => ?_, fun p hp => ?_⟩
    · cases v <;> exact List.nodup_nil
    · cases v <;> simp [ContainerReport.paths]
    · simp at hp
  | append_singleton ps p ih =>
    rw [List.foldl_concat]
    exact ih.add p

/-! ## The report -/

theorem mem_sorted {l : List Bytes} : p ∈ sorted l ↔ p ∈ l :=
  (List.perm_insertionSort _ l).mem_iff

theorem paths_compare (c : CheckedContainer) (s : ScannedImage) (v : Verdict) :
    ((compare c s).paths v).Pairwise (· < ·) ∧
      ∀ p, p ∈ (compare c s).paths v ↔ p ∈ c.allowed ∧ s.verdict p = v := by
  have hloop := Comparing.after_loop s c c.allowed
  have heq : (compare c s).paths v = sorted ((c.allowed.foldl (Comparing.add s)
      { report := { toCheckedContainer := c } }).report.paths v) := by
    cases v <;> rfl
  rw [heq]
  exact ⟨pairwise_lt_insertionSort (hloop.nodup v), fun p => mem_sorted.trans (hloop.paths v p)⟩

theorem notAllowed_compare (c : CheckedContainer) (s : ScannedImage) (p : Bytes) :
    p ∈ (compare c s).notAllowed ↔ p ∈ s.executables ∧ p ∉ c.allowed := by
  have hmet := (Comparing.after_loop s c c.allowed).met p
  rw [← hmet]
  simp [compare]

theorem links_compare (c : CheckedContainer) (s : ScannedImage)
    (h : ((compare c s).links.lookup p).isSome = true) : p ∈ (compare c s).stale :=
  mem_sorted.mpr ((Comparing.after_loop s c c.allowed).links p h)

/-- What a report says of the allowed paths and of the image. -/
structure Classifies (allowed : List Bytes) (result : Result) (opts : ScanOptions)
    (r : ContainerReport) : Prop where
  disjoint : [r.executables, r.libraries, r.unknown, r.stale].Pairwise List.Disjoint
  increasing : ∀ l ∈ [r.executables, r.libraries, r.unknown, r.stale, r.notAllowed],
    l.Pairwise (· < ·)
  union : ∀ p, p ∈ r.executables ∨ p ∈ r.libraries ∨ p ∈ r.unknown ∨ p ∈ r.stale ↔ p ∈ allowed
  stale : ∀ p ∈ allowed, p ∈ r.stale ↔ ∀ e ∈ result.executables, e.path ≠ p
  executables : ∀ p ∈ allowed, p ∈ r.executables ↔
    ∃ e ∈ result.executables, e.path = p ∧ opts.includes e.kind = true
  notAllowed : ∀ p, p ∈ r.notAllowed ↔
    (∃ e ∈ result.executables, e.path = p ∧ opts.includes e.kind = true) ∧ p ∉ allowed
  links : ∀ p, (r.links.lookup p).isSome = true → p ∈ r.stale

/-- **The image check classifies every allowed path exactly once.** -/
theorem compare_classifies (c : CheckedContainer) {result : Result} (opts : ScanOptions)
    (hsorted : (result.executables.map Executable.path).Pairwise (· < ·)) :
    Classifies c.allowed result opts (compare c (newScannedImage result opts)) := by
  have hscan := scans_newScannedImage opts (hsorted.imp ne_of_lt)
  have hpaths := paths_compare c (newScannedImage result opts)
  refine ⟨?_, ?_, fun p => ?_, fun p hp => ?_, fun p hp => ?_, fun p => ?_, fun p => ?_⟩
  · -- two lists have different verdicts
    have hne : [Verdict.executable, .library, .unknown, .stale].Pairwise (· ≠ ·) := by decide
    have happart : ∀ {v v' : Verdict}, v ≠ v' → List.Disjoint
        ((compare c (newScannedImage result opts)).paths v)
        ((compare c (newScannedImage result opts)).paths v') := fun {v v'} hvv p hp hp' =>
      hvv ((((hpaths v).2 p).mp hp).2.symm.trans (((hpaths v').2 p).mp hp').2)
    exact List.pairwise_map.mpr (hne.imp happart)
  · intro l hl
    simp only [List.mem_cons, List.not_mem_nil, or_false] at hl
    rcases hl with rfl | rfl | rfl | rfl | rfl
    · exact (hpaths .executable).1
    · exact (hpaths .library).1
    · exact (hpaths .unknown).1
    · exact (hpaths .stale).1
    · exact (hscan.pairwise_executables hsorted).sublist List.filter_sublist
  · constructor
    · rintro (hp | hp | hp | hp)
      · exact (((hpaths .executable).2 p).mp hp).1
      · exact (((hpaths .library).2 p).mp hp).1
      · exact (((hpaths .unknown).2 p).mp hp).1
      · exact (((hpaths .stale).2 p).mp hp).1
    · intro hp
      cases hv : (newScannedImage result opts).verdict p with
      | executable => exact .inl (((hpaths .executable).2 p).mpr ⟨hp, hv⟩)
      | library => exact .inr (.inl (((hpaths .library).2 p).mpr ⟨hp, hv⟩))
      | unknown => exact .inr (.inr (.inl (((hpaths .unknown).2 p).mpr ⟨hp, hv⟩)))
      | stale => exact .inr (.inr (.inr (((hpaths .stale).2 p).mpr ⟨hp, hv⟩)))
  · rw [← hscan.verdict_eq_stale hsorted p]
    exact ((hpaths .stale).2 p).trans (and_iff_right hp)
  · rw [← hscan.verdict_eq_executable hsorted p]
    exact ((hpaths .executable).2 p).trans (and_iff_right hp)
  · rw [notAllowed_compare, hscan.mem_executables]
  · exact links_compare c _

namespace Sample

def image : Result where
  executables := [⟨[0x2f, 0x61], .program⟩, ⟨[0x2f, 0x62], .library⟩, ⟨[0x2f, 0x63], .script⟩]

def checked : CheckedContainer where
  name := "app"
  image := "web"
  allowed := [[0x2f, 0x64], [0x2f, 0x62], [0x2f, 0x61], [0x2f, 0x64]]

theorem compare_classifies_image :
    (compare checked (newScannedImage image {})).stale = [[0x2f, 0x64]] ∧
      Classifies checked.allowed image {} (compare checked (newScannedImage image {})) :=
  ⟨by decide +kernel, compare_classifies checked {} (by decide)⟩

end Sample

end RuntimeEnforcer.Wpgen
