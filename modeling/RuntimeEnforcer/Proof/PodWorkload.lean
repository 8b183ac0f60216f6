import RuntimeEnforcer.Agent.PodWorkload
import RuntimeEnforcer.Lib.KubeNames

/-!
# Pods and the workloads they are attributed to

Whether the parser returns at all (`getTruncatedWorkloadInfo_returns_iff`): it slices the pod name
five bytes from its end whenever a label says Deployment or DaemonSet, and looks for a dash in a
label's value. And whether it finds the owner of a pod whose name the API server generated: it cuts
the owner's base at 58 bytes and appends five random ones (`generatedName`). The cut falls in the
hash of a Deployment (`parseDeployment_cut`), where the part that is left is told from the name by
the longest match, or in the name itself; and for a DaemonSet in front of the dash that the parser
takes for the end of the name.
-/

set_option autoImplicit false

namespace RuntimeEnforcer.Podworkload

open Lib

/-! ## When the parser returns -/

variable {podName : Bytes}

theorem sliceTo_eq_ok_iff {s : Bytes} :
    (∃ p, sliceTo s ((s.length : Int) - randomSuffixLen) = .ok p) ↔ 5 ≤ s.length := by
  unfold sliceTo randomSuffixLen
  split
  · next h => exact ⟨fun _ => by omega, fun _ => ⟨_, rfl⟩⟩
  · next h => exact ⟨fun ⟨_, hp⟩ => (nomatch hp), fun hlen => absurd (by omega) h⟩

theorem parseDeployment_returns_iff {templateHash : Bytes} :
    (∃ r, parseDeployment podName templateHash = .ok r) ↔ 5 ≤ podName.length := by
  rw [← sliceTo_eq_ok_iff]
  unfold parseDeployment
  cases sliceTo podName ((podName.length : Int) - randomSuffixLen) with
  | error e => exact ⟨fun ⟨_, h⟩ => (nomatch h), fun ⟨_, h⟩ => (nomatch h)⟩
  | ok p =>
    refine ⟨fun _ => ⟨p, rfl⟩, fun _ => ?_⟩
    cases h : longestMatch minTemplateHashMatch (dash :: templateHash ++ [dash]) p with
    | none => exact ⟨_, by simp only [bind, Except.bind, h]; rfl⟩
    | some i => exact ⟨_, by simp only [bind, Except.bind, h]; rfl⟩

theorem parseDaemonSet_returns_iff :
    (∃ r, parseDaemonSet podName = .ok r) ↔ 5 ≤ podName.length := by
  rw [← sliceTo_eq_ok_iff]
  unfold parseDaemonSet
  cases sliceTo podName ((podName.length : Int) - randomSuffixLen) with
  | error e => exact ⟨fun ⟨_, h⟩ => (nomatch h), fun ⟨_, h⟩ => (nomatch h)⟩
  | ok p =>
    refine ⟨fun _ => ⟨p, rfl⟩, fun _ => ?_⟩
    by_cases h : [dash] <:+ p
    · exact ⟨_, by simp only [bind, Except.bind, if_pos h]; rfl⟩
    · exact ⟨_, by simp only [bind, Except.bind, if_neg h]; rfl⟩

theorem lastDash_eq_none {s : Bytes} : lastDash s = none ↔ dash ∉ s := by
  simp [lastDash, List.idxOf?_eq_none_iff]

theorem parseStatefulSet_returns_iff :
    (∃ r, parseStatefulSet podName = .ok r) ↔ dash ∈ podName := by
  unfold parseStatefulSet
  cases h : lastDash podName with
  | none => exact ⟨fun ⟨_, hr⟩ => (nomatch hr), fun hmem => absurd hmem (lastDash_eq_none.mp h)⟩
  | some i =>
    refine ⟨fun _ => ?_, fun _ => ⟨_, rfl⟩⟩
    by_contra hmem
    rw [lastDash_eq_none.mpr hmem] at h
    cases h

/-- The parser that the labels choose can be applied: the name it cuts has its five random bytes,
the value it splits has a dash. -/
def Parsable (podName : Bytes) (labels : GoMap String Bytes) : Prop :=
  match labels.lookup podTemplateHashLabel with
  | some _ => 5 ≤ podName.length
  | none =>
    match labels.lookup statefulsetLabel with
    | some statefulPodName => dash ∈ statefulPodName
    | none => (labels.lookup daemonsetLabel).isSome → 5 ≤ podName.length

theorem getWorkloadInfo_returns_iff {labels : GoMap String Bytes} :
    (∃ r, getWorkloadInfo podName labels = .ok r) ↔ Parsable podName labels := by
  unfold getWorkloadInfo Parsable
  cases labels.lookup podTemplateHashLabel with
  | some hash => exact parseDeployment_returns_iff
  | none =>
    cases labels.lookup statefulsetLabel with
    | some statefulPodName => exact parseStatefulSet_returns_iff
    | none =>
      cases labels.lookup daemonsetLabel with
      | some _ => simpa using parseDaemonSet_returns_iff
      | none =>
        cases labels.lookup oldJobNameLabel with
        | some jobName => simp
        | none => cases labels.lookup newJobNameLabel <;> simp

/-- What the exported function adds does not fail. -/
theorem getTruncatedWorkloadInfo_eq {labels : GoMap String Bytes} :
    getTruncatedWorkloadInfo podName labels =
      (getWorkloadInfo podName labels).map
        fun r => (r.1, r.2, decide (truncatedSuffix <:+ r.1)) := by
  unfold getTruncatedWorkloadInfo
  cases getWorkloadInfo podName labels <;> rfl

/-- **When the parser returns.** For any name and any labels, exactly when the parser they choose
can be applied. -/
theorem getTruncatedWorkloadInfo_returns_iff (podName : Bytes) (labels : GoMap String Bytes) :
    (∃ r, getTruncatedWorkloadInfo podName labels = .ok r) ↔ Parsable podName labels := by
  rw [← getWorkloadInfo_returns_iff, getTruncatedWorkloadInfo_eq]
  cases getWorkloadInfo podName labels with
  | error e => simp [Except.map]
  | ok r => simp [Except.map]

namespace Sample

def labelled : GoMap String Bytes := (∅ : GoMap String Bytes).insert podTemplateHashLabel []

theorem short_name_panics :
    getTruncatedWorkloadInfo [0x77, 0x65, 0x62] labelled = .error (.sliceBounds (-2) 3) := by
  decide

end Sample

/-! ## Names the API server generates -/

/-- `SimpleNameGenerator.GenerateName`: the base is cut so that with the random bytes the name has
63. -/
def generatedName (base random : Bytes) : Bytes := base.take 58 ++ random

theorem sliceTo_append {p r : Bytes} (hr : r.length = 5) :
    sliceTo (p ++ r) (((p ++ r).length : Int) - randomSuffixLen) = .ok p := by
  have hn : ((p ++ r).length : Int) - randomSuffixLen = p.length := by
    simp only [List.length_append, randomSuffixLen]
    omega
  have hle : (p.length : Int) ≤ (p ++ r).length := by
    simp only [List.length_append]
    omega
  rw [hn, sliceTo, if_pos ⟨by omega, hle⟩, Int.toNat_natCast, List.take_left']
  rfl

section DaemonSet

variable {d p q r : Bytes} {labels : GoMap String Bytes}

theorem parseDaemonSet_dash (hr : r.length = 5) :
    parseDaemonSet (q ++ [dash] ++ r) = .ok (q, .daemonSet) := by
  unfold parseDaemonSet
  simp only [sliceTo_append hr, bind, Except.bind]
  rw [if_pos (List.suffix_append q [dash])]
  simp [pure, Except.pure]

theorem parseDaemonSet_noDash (hr : r.length = 5) (hp : ¬ [dash] <:+ p) :
    parseDaemonSet (p ++ r) = .ok (p ++ truncatedSuffix, .daemonSet) := by
  unfold parseDaemonSet
  simp only [sliceTo_append hr, bind, Except.bind]
  rw [if_neg hp]
  rfl

theorem getWorkloadInfo_daemonSet (hhash : labels.lookup podTemplateHashLabel = none)
    (hsts : labels.lookup statefulsetLabel = none) (hds : (labels.lookup daemonsetLabel).isSome) :
    getWorkloadInfo podName labels = parseDaemonSet podName := by
  obtain ⟨v, hv⟩ := Option.isSome_iff_exists.mp hds
  simp only [getWorkloadInfo, hhash, hsts, hv]

/-- **The DaemonSet of a pod.** The name that is found is the DaemonSet's, or is marked as
truncated, exactly when the cut does not fall behind a dash of the name itself, or the part before
that dash happens to end like a truncated name. -/
theorem daemonSet_attributed_iff (hr : r.length = 5)
    (hhash : labels.lookup podTemplateHashLabel = none)
    (hsts : labels.lookup statefulsetLabel = none)
    (hds : (labels.lookup daemonsetLabel).isSome) :
    (∃ name truncated,
      getTruncatedWorkloadInfo (generatedName (d ++ [dash]) r) labels =
        .ok (name, .daemonSet, truncated) ∧ (name = d ∨ truncated = true)) ↔
      (d[57]? = some dash → truncatedSuffix <:+ d.take 57) := by
  rw [getTruncatedWorkloadInfo_eq, getWorkloadInfo_daemonSet hhash hsts hds, generatedName]
  rcases Nat.lt_or_ge d.length 58 with hlen | hlen
  · -- the whole name and its dash are kept
    have hcut : (d ++ [dash]).take 58 = d ++ [dash] :=
      List.take_of_length_le (by simp only [List.length_append, List.length_singleton]; omega)
    rw [hcut, parseDaemonSet_dash hr]
    refine ⟨fun _ h => ?_, fun _ => ⟨d, _, rfl, .inl rfl⟩⟩
    rw [List.getElem?_eq_none (by omega)] at h
    cases h
  · -- the cut is in the name, behind its byte at 57
    have hc : d[57]? = some d[57] := List.getElem?_eq_getElem (by omega)
    have hcut : (d ++ [dash]).take 58 = d.take 57 ++ [d[57]] := by
      rw [List.take_append_of_le_length (by omega), List.take_add_one, hc]
      rfl
    rw [hcut, hc]
    by_cases hdash : d[57] = dash
    · have hne : d.take 57 ≠ d := fun h => by
        have := congrArg List.length h
        rw [List.length_take] at this
        omega
      rw [hdash, parseDaemonSet_dash hr]
      simp only [Except.map, Except.ok.injEq, Prod.mk.injEq, true_and, forall_const]
      constructor
      · rintro ⟨name, truncated, ⟨rfl, rfl⟩, h⟩
        exact of_decide_eq_true (h.resolve_left hne)
      · intro h
        exact ⟨_, _, ⟨rfl, rfl⟩, .inr (decide_eq_true h)⟩
    · have hno : ¬ [dash] <:+ d.take 57 ++ [d[57]] := by
        rintro ⟨t, ht⟩
        exact hdash (List.singleton_inj.mp (List.append_inj' ht rfl).2).symm
      rw [parseDaemonSet_noDash hr hno]
      refine ⟨fun _ h => absurd (Option.some.inj h) hdash, fun _ => ⟨_, _, rfl, .inr ?_⟩⟩
      exact decide_eq_true (List.suffix_append _ _)

end DaemonSet

/-! ### A name that is cut behind its own dash -/

namespace Sample

open Lib

def revision : GoMap String Bytes := (∅ : GoMap String Bytes).insert daemonsetLabel []

def agentText : String := String.ofList (List.replicate 57 'a' ++ ['-', 'b'])

def agentName : Bytes := agentText.toUTF8.toList

def randomSuffix : Bytes := "6qq8v".toUTF8.toList

/-- The cut falls behind the dash of the name: the pod is attributed to the DaemonSet of fifty-seven
letters, and the name is not marked. -/
theorem other_daemonSet :
    SubdomainName agentText ∧ "6qq8v".toList.all isLowerAlnum = true ∧
      getTruncatedWorkloadInfo (generatedName (agentName ++ [dash]) randomSuffix) revision =
        .ok (List.replicate 57 0x61, .daemonSet, false) ∧
      List.replicate 57 0x61 ≠ agentName := by
  decide +kernel

theorem agentName_attributed_iff :
    (∃ name truncated,
      getTruncatedWorkloadInfo (generatedName (agentName ++ [dash]) randomSuffix) revision =
        .ok (name, .daemonSet, truncated) ∧ (name = agentName ∨ truncated = true)) ↔
      (agentName[57]? = some dash → truncatedSuffix <:+ agentName.take 57) :=
  daemonSet_attributed_iff (by decide +kernel) (by decide) (by decide) (by decide)

end Sample

section Deployment

variable {j : Nat}

variable {d h p r : Bytes} {labels : GoMap String Bytes}

theorem parseDeployment_match {i : Nat} (hr : r.length = 5)
    (hm : longestMatch minTemplateHashMatch (dash :: h ++ [dash]) p = some i) :
    parseDeployment (p ++ r) h = .ok (p.take (p.length - i), .deployment) := by
  unfold parseDeployment
  simp only [sliceTo_append hr, bind, Except.bind, hm]
  rfl

theorem parseDeployment_noMatch (hr : r.length = 5)
    (hm : longestMatch minTemplateHashMatch (dash :: h ++ [dash]) p = none) :
    parseDeployment (p ++ r) h = .ok (trimDash p ++ truncatedSuffix, .deployment) := by
  unfold parseDeployment
  simp only [sliceTo_append hr, bind, Except.bind, hm]
  rfl

theorem pattern_dash (hh : dash ∉ h) {k : Nat} (hk : (dash :: h ++ [dash])[k]? = some dash) :
    k = 0 ∨ k = h.length + 1 := by
  rcases k with _ | k
  · exact .inl rfl
  · right
    rw [List.cons_append, List.getElem?_cons_succ, List.getElem?_append] at hk
    split at hk
    · exact absurd (List.mem_of_getElem? hk) hh
    · next hge =>
      have hlt := (List.getElem?_eq_some_iff.mp hk).1
      simp only [List.length_singleton] at hlt
      omega

/-- Behind a kept part of the pattern, a longer match would begin with the dash in front of the
hash, which the kept part has at its own front: the longer match is the whole pattern, and only its
last dash is kept. -/
theorem longer_match (hh : dash ∉ h) {i : Nat} (hi : i ≤ h.length + 2) (hij : j < i) (hj : 0 < j)
    (hm : (dash :: h ++ [dash]).take i <:+ d ++ (dash :: h ++ [dash]).take j) :
    i = h.length + 2 ∧ j = 1 := by
  have hlen : (dash :: h ++ [dash]).length = h.length + 2 := by simp
  have hcopy := overlap_getElem? (by omega) (by omega) hm hj
  have := pattern_dash hh (k := i - j) (by simpa using hcopy)
  omega

theorem take_pattern (hlen : 4 ≤ h.length) :
    (dash :: h ++ [dash]).take 5 = dash :: h.take 4 := by
  rw [List.cons_append, List.take_succ_cons, List.take_append_of_le_length hlen]

theorem longestMatch_kept (hh : dash ∉ h) (hj : 5 ≤ j) (hle : j ≤ h.length + 2) :
    longestMatch minTemplateHashMatch (dash :: h ++ [dash]) (d ++ (dash :: h ++ [dash]).take j) =
      some j := by
  refine longestMatch_eq_some hj (by simpa using hle) (List.suffix_append _ _) ?_
  intro k hjk hk hm
  have := longer_match hh (by simpa using hk) hjk (by omega) hm
  omega

/-- Fewer are kept, and the name has no dash with the first four bytes of the hash behind it:
nothing matches. -/
theorem longestMatch_cut (hh : dash ∉ h) (hlen : 4 ≤ h.length) (hj : j < 5)
    (hd : ¬ (dash :: h.take 4) <:+: d) :
    longestMatch minTemplateHashMatch (dash :: h ++ [dash]) (d ++ (dash :: h ++ [dash]).take j) =
      none := by
  have hpat : (dash :: h ++ [dash]).length = h.length + 2 := by simp
  refine longestMatch_eq_none fun k hmin hk hm => hd ?_
  have hmin : 5 ≤ k := hmin
  have hfront := overlap_front hk (by omega) hm
  -- what lies in the name has at least five bytes of the pattern
  have hlong : 5 ≤ k - j := by
    rcases Nat.eq_zero_or_pos j with rfl | hpos
    · exact hmin
    · have := longer_match hh (by omega) (by omega) hpos hm
      omega
  have hpre : (dash :: h ++ [dash]).take 5 <+: (dash :: h ++ [dash]).take (k - j) := by
    exact List.take_prefix_take_left hlong
  rw [take_pattern hlen] at hpre
  exact hpre.isInfix.trans hfront.isInfix

theorem getWorkloadInfo_deployment (hhash : labels.lookup podTemplateHashLabel = some h) :
    getWorkloadInfo podName labels = parseDeployment podName h := by
  simp only [getWorkloadInfo, hhash]

/-- **The Deployment of a pod.** A name of at most 53 bytes is recovered, wherever the cut falls in
the hash; a longer one is marked as truncated. -/
theorem deployment_attributed (hd : ¬ truncatedSuffix <:+ d) (hh : dash ∉ h)
    (hlen : 4 ≤ h.length) (hfree : ¬ (dash :: h.take 4) <:+: d) (hr : r.length = 5)
    (hhash : labels.lookup podTemplateHashLabel = some h) :
    (d.length ≤ 53 →
      getTruncatedWorkloadInfo (generatedName (d ++ dash :: h ++ [dash]) r) labels =
        .ok (d, .deployment, false)) ∧
    (54 ≤ d.length → ∃ name,
      getTruncatedWorkloadInfo (generatedName (d ++ dash :: h ++ [dash]) r) labels =
        .ok (name, .deployment, true)) := by
  rw [getTruncatedWorkloadInfo_eq, getWorkloadInfo_deployment hhash, generatedName]
  have hcut : (d ++ dash :: h ++ [dash]).take 58 =
      d.take 58 ++ (dash :: h ++ [dash]).take (58 - d.length) := by
    rw [List.append_assoc, List.take_append]
  rw [hcut]
  constructor
  · intro hshort
    -- the kept part of the pattern, which may be all of it
    obtain ⟨j, hj, hjle, hkeep⟩ : ∃ j, 5 ≤ j ∧ j ≤ h.length + 2 ∧
        (dash :: h ++ [dash]).take (58 - d.length) = (dash :: h ++ [dash]).take j := by
      refine ⟨min (58 - d.length) (h.length + 2), by omega, by omega, ?_⟩
      rw [List.take_eq_take_iff]
      simp
    have hm := longestMatch_kept (d := d) hh hj hjle
    rw [List.take_of_length_le (by omega), hkeep, parseDeployment_match hr hm]
    have hname : (d ++ (dash :: h ++ [dash]).take j).length - j = d.length := by
      rw [List.length_append, List.length_take]
      have : (dash :: h ++ [dash]).length = h.length + 2 := by simp
      omega
    rw [hname, List.take_left']
    · simp [Except.map, hd]
    · rfl
  · intro hlong
    have hfree' : ¬ (dash :: h.take 4) <:+: d.take 58 := fun hin =>
      hfree (hin.trans (List.take_prefix 58 d).isInfix)
    have hm := longestMatch_cut hh hlen (j := 58 - d.length) (by omega) hfree'
    rw [parseDeployment_noMatch hr hm]
    refine ⟨trimDash (d.take 58 ++ (dash :: h ++ [dash]).take (58 - d.length)) ++ truncatedSuffix,
      ?_⟩
    simp only [Except.map]
    rw [decide_eq_true (List.suffix_append _ truncatedSuffix)]

end Deployment

namespace Sample

def deploymentName : Bytes := [0x75, 0x62, 0x75, 0x6e, 0x74, 0x75]

def templateHash : Bytes := [0x36, 0x37, 0x34, 0x62, 0x63, 0x63, 0x35, 0x38, 0x66, 0x34]

def hashed : GoMap String Bytes := (∅ : GoMap String Bytes).insert podTemplateHashLabel templateHash

theorem ubuntu_attributed :
    getTruncatedWorkloadInfo
        (generatedName (deploymentName ++ dash :: templateHash ++ [dash]) randomSuffix) hashed =
      .ok (deploymentName, .deployment, false) :=
  (deployment_attributed (by decide) (by decide) (by decide) (by decide)
    (by decide +kernel) (by decide)).1 (by decide)

end Sample

end RuntimeEnforcer.Podworkload
