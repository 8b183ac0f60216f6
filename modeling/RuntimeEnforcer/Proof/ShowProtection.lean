import Mathlib.Data.List.Induction
import Mathlib.Data.List.Nodup
import RuntimeEnforcer.Kubectlplugin.ShowProtection

/-!
# What the protection report shows

A row of the report names a workload by namespace, name and kind, but the rows are told apart by
namespace and name only. So the report shows every workload if no two of one namespace and one name
differ in their kind, and otherwise it shows the one whose pod was listed first: the others are
missing, with the policies they carry (`buildWorkloadProtectionRows_complete_iff`).
-/

set_option autoImplicit false

namespace RuntimeEnforcer.Kubectlplugin

open Lib
open Podworkload (Kind getTruncatedWorkloadInfo)

/-! ## What a row is about -/

variable {row : WorkloadProtectionRow}

/-- What the report distinguishes. -/
structure Workload where
  ns : Namespace
  kind : Kind
  name : Bytes
  deriving DecidableEq

def Workload.key (w : Workload) : NamespacedName := ⟨w.ns, w.name⟩

/-- A pod that carries a policy, and whose name and labels say that it is of the workload. -/
def Pod.IsOf (pod : Pod) (w : Workload) : Prop :=
  pod.policyName ≠ [] ∧ pod.ns = w.ns ∧
    ∃ truncated, getTruncatedWorkloadInfo pod.name pod.labels = .ok (w.name, w.kind, truncated)

def WorkloadProtectionRow.IsOf (row : WorkloadProtectionRow) (w : Workload) : Prop :=
  row.workload = w.key.string ∧ row.kind = w.kind.string

instance (row : WorkloadProtectionRow) (w : Workload) : Decidable (row.IsOf w) :=
  inferInstanceAs (Decidable (_ ∧ _))

/-- The row has the mode and the status of the policy that the pod names, in the pod's namespace. -/
def WorkloadProtectionRow.Shows (row : WorkloadProtectionRow) (policies : List WorkloadPolicy)
    (pod : Pod) : Prop :=
  (∃ policy ∈ policies, policy.ns = pod.ns ∧ policy.name = pod.policyName ∧
      modeToUpper policy.mode = .ok row.mode ∧ row.status = phaseString policy.phase) ∨
    (∀ policy ∈ policies, ¬ (policy.ns = pod.ns ∧ policy.name = pod.policyName)) ∧
      row.mode = unknownMode ∧ row.status = missingStatus

/-- The row is what a pod of the workload gives. -/
structure WorkloadProtectionRow.Describes (row : WorkloadProtectionRow)
    (policies : List WorkloadPolicy) (pod : Pod) (w : Workload) : Prop where
  isOf : row.IsOf w
  policy : row.policy = pod.policyName
  shows : row.Shows policies pod

/-- What is asked of the report. -/
structure Complete (pods : List Pod) (policies : List WorkloadPolicy)
    (rows : List WorkloadProtectionRow) : Prop where
  one : ∀ w, (∃ pod ∈ pods, pod.IsOf w) → rows.countP (fun row => row.IsOf w) = 1
  noOther : ∀ row ∈ rows, ∃ w, ∃ pod ∈ pods, pod.IsOf w ∧ row.Describes policies pod w

theorem NamespacedName.string_injective : Function.Injective NamespacedName.string := by
  intro ⟨⟨ns, hns⟩, name⟩ ⟨⟨ns', hns'⟩, name'⟩ h
  obtain ⟨rfl, rfl⟩ := append_separator_inj hns hns' h
  rfl

theorem kind_string_injective : Function.Injective Kind.string := by
  intro a b h
  cases a <;> cases b <;> first | rfl | exact absurd h (by decide)

theorem Pod.IsOf.unique {pod : Pod} {w w' : Workload} (h : pod.IsOf w) (h' : pod.IsOf w') :
    w = w' := by
  obtain ⟨ns, kind, name⟩ := w
  obtain ⟨ns', kind', name'⟩ := w'
  obtain ⟨-, rfl, t, hinfo⟩ := h
  obtain ⟨-, rfl, t', hinfo'⟩ := h'
  rw [hinfo] at hinfo'
  cases hinfo'
  rfl

theorem WorkloadProtectionRow.IsOf.unique {w w' : Workload} (h : row.IsOf w) (h' : row.IsOf w') :
    w = w' := by
  have hkey : w.key = w'.key := NamespacedName.string_injective (h.1.symm.trans h'.1)
  have hkind : w.kind = w'.kind := kind_string_injective (h.2.symm.trans h'.2)
  obtain ⟨ns, kind, name⟩ := w
  obtain ⟨ns', kind', name'⟩ := w'
  cases hkey
  cases hkind
  rfl

/-! ## The policy of a pod -/

variable {policies : List WorkloadPolicy}

theorem policyByNamespacedName_push (policies : List WorkloadPolicy) (policy : WorkloadPolicy) :
    policyByNamespacedName (policies ++ [policy]) =
      (policyByNamespacedName policies).insert ⟨policy.ns, policy.name⟩ policy := by
  unfold policyByNamespacedName
  rw [List.foldl_concat]

theorem mem_of_lookup_policy {key : NamespacedName} {policy : WorkloadPolicy}
    (h : (policyByNamespacedName policies).lookup key = some policy) :
    policy ∈ policies ∧ policy.ns = key.ns ∧ policy.name = key.name := by
  induction policies using List.reverseRecOn with
  | nil => exact absurd h (by simp [policyByNamespacedName])
  | append_singleton policies last ih =>
    rw [policyByNamespacedName_push, GoMap.lookup_insert_eq] at h
    split at h
    · next hkey =>
      cases h
      subst hkey
      exact ⟨by simp, rfl, rfl⟩
    · obtain ⟨hmem, hkey⟩ := ih h
      exact ⟨List.mem_append_left _ hmem, hkey⟩

theorem lookup_policy_isSome {policy : WorkloadPolicy} (h : policy ∈ policies) :
    ((policyByNamespacedName policies).lookup ⟨policy.ns, policy.name⟩).isSome = true := by
  induction policies using List.reverseRecOn with
  | nil => exact absurd h (by simp)
  | append_singleton policies last ih =>
    rw [policyByNamespacedName_push, GoMap.lookup_insert_eq]
    split
    · rfl
    · next hkey =>
      rcases List.mem_append.mp h with hold | hlast
      · exact ih hold
      · rw [List.mem_singleton.mp hlast] at hkey
        exact absurd rfl hkey

theorem modeToUpper_string (m : Mode) : ∃ text, modeToUpper m.string = .ok text := by
  cases m with
  | monitor => exact ⟨"Monitor", rfl⟩
  | protect => exact ⟨"Protect", rfl⟩

theorem modeAndStatus_shows (hmodes : ∀ policy ∈ policies, ∃ m : Mode, policy.mode = m.string)
    (pod : Pod) :
    ∃ mode status, modeAndStatus
        ((policyByNamespacedName policies).lookup ⟨pod.ns, pod.policyName⟩) = .ok (mode, status) ∧
      ∀ row : WorkloadProtectionRow, row.mode = mode → row.status = status →
        row.Shows policies pod := by
  cases hlookup : (policyByNamespacedName policies).lookup ⟨pod.ns, pod.policyName⟩ with
  | none =>
    refine ⟨unknownMode, missingStatus, rfl, fun row hmode hstatus => .inr ⟨?_, hmode, hstatus⟩⟩
    intro policy hmem ⟨hns, hname⟩
    have hsome := lookup_policy_isSome hmem
    rw [hns, hname, hlookup] at hsome
    exact absurd hsome (by simp)
  | some policy =>
    obtain ⟨hmem, hns, hname⟩ := mem_of_lookup_policy hlookup
    obtain ⟨m, hm⟩ := hmodes policy hmem
    obtain ⟨text, htext⟩ := modeToUpper_string m
    rw [← hm] at htext
    refine ⟨text, phaseString policy.phase, by simp [modeAndStatus, htext, Except.map], ?_⟩
    intro row hmode hstatus
    exact .inl ⟨policy, hmem, hns, hname, hmode ▸ htext, hstatus⟩

/-! ## The loop over the pods -/

/-- What the map of rows holds after some pods. -/
structure Reported (policies : List WorkloadPolicy) (pods : List Pod)
    (rowsByKey : GoMap NamespacedName WorkloadProtectionRow) : Prop where
  covered : ∀ w, (∃ pod ∈ pods, pod.IsOf w) → (rowsByKey.lookup w.key).isSome = true
  made : ∀ key row, rowsByKey.lookup key = some row →
    ∃ w, w.key = key ∧ ∃ pod ∈ pods, pod.IsOf w ∧ row.Describes policies pod w

section Loop

variable {policies : List WorkloadPolicy} {pods : List Pod} {pod : Pod} {w : Workload}
  {rowsByKey : GoMap NamespacedName WorkloadProtectionRow}

theorem exists_isOf_push :
    (∃ p ∈ pods ++ [pod], p.IsOf w) ↔ (∃ p ∈ pods, p.IsOf w) ∨ pod.IsOf w := by
  simp only [List.mem_append, List.mem_singleton, or_and_right, exists_or, exists_eq_left]

theorem reported_nil : Reported policies [] ∅ where
  covered := by
    rintro w ⟨pod, hpod, -⟩
    exact absurd hpod (by simp)
  made := by
    intro key row h
    exact absurd h (by simp)

theorem Reported.keep (h : Reported policies pods rowsByKey)
    (hpod : ∀ w, pod.IsOf w → (rowsByKey.lookup w.key).isSome = true) :
    Reported policies (pods ++ [pod]) rowsByKey where
  covered := by
    intro w hw
    rcases exists_isOf_push.mp hw with hold | hlast
    · exact h.covered w hold
    · exact hpod w hlast
  made := by
    intro key row hrow
    obtain ⟨w, hkey, p, hp, hdesc⟩ := h.made key row hrow
    exact ⟨w, hkey, p, List.mem_append_left _ hp, hdesc⟩

theorem Reported.insert (h : Reported policies pods rowsByKey) (hpod : pod.IsOf w)
    (hrow : row.Describes policies pod w) :
    Reported policies (pods ++ [pod]) (rowsByKey.insert w.key row) where
  covered := by
    intro w' hw
    rw [GoMap.lookup_insert_eq]
    split
    · rfl
    · next hne =>
      rcases exists_isOf_push.mp hw with hold | hlast
      · exact h.covered w' hold
      · exact absurd (congrArg Workload.key (hlast.unique hpod)) hne
  made := by
    intro key row' hlookup
    rw [GoMap.lookup_insert_eq] at hlookup
    split at hlookup
    · next heq =>
      cases hlookup
      exact ⟨w, heq.symm, pod, by simp, hpod, hrow⟩
    · obtain ⟨w', hkey, p, hp, hdesc⟩ := h.made key row' hlookup
      exact ⟨w', hkey, p, List.mem_append_left _ hp, hdesc⟩

theorem addPod_reported (h : Reported policies pods rowsByKey)
    (hparse : pod.policyName ≠ [] →
      ∃ info, getTruncatedWorkloadInfo pod.name pod.labels = .ok info)
    (hmodes : ∀ policy ∈ policies, ∃ m : Mode, policy.mode = m.string) :
    ∃ rowsByKey', addPod (policyByNamespacedName policies) rowsByKey pod = .ok rowsByKey' ∧
      Reported policies (pods ++ [pod]) rowsByKey' := by
  unfold addPod
  by_cases hlabel : pod.policyName = []
  · rw [if_pos hlabel]
    exact ⟨rowsByKey, rfl, h.keep fun w hw => absurd hlabel hw.1⟩
  rw [if_neg hlabel]
  obtain ⟨⟨name, kind, truncated⟩, hinfo⟩ := hparse hlabel
  have hpod : pod.IsOf ⟨pod.ns, kind, name⟩ := ⟨hlabel, rfl, truncated, hinfo⟩
  rw [hinfo]
  dsimp only
  by_cases hseen : (rowsByKey.lookup ⟨pod.ns, name⟩).isSome = true
  · rw [if_pos hseen]
    refine ⟨rowsByKey, rfl, h.keep fun w hw => ?_⟩
    rw [hw.unique hpod]
    exact hseen
  rw [if_neg hseen]
  obtain ⟨mode, status, heq, hshows⟩ := modeAndStatus_shows hmodes pod
  rw [heq]
  exact ⟨_, rfl, h.insert hpod ⟨⟨rfl, rfl⟩, rfl, hshows _ rfl rfl⟩⟩

theorem foldlM_addPod_reported
    (hmodes : ∀ policy ∈ policies, ∃ m : Mode, policy.mode = m.string)
    (hparse : ∀ pod ∈ pods, pod.policyName ≠ [] →
      ∃ info, getTruncatedWorkloadInfo pod.name pod.labels = .ok info) :
    ∃ rowsByKey, pods.foldlM (addPod (policyByNamespacedName policies)) ∅ = .ok rowsByKey ∧
      Reported policies pods rowsByKey := by
  induction pods using List.reverseRecOn with
  | nil => exact ⟨∅, rfl, reported_nil⟩
  | append_singleton pods pod ih =>
    obtain ⟨before, hbefore, hreported⟩ := ih fun p hp => hparse p (List.mem_append_left _ hp)
    obtain ⟨rowsByKey, hadd, hall⟩ := addPod_reported hreported (hparse pod (by simp)) hmodes
    exact ⟨rowsByKey, foldlM_push_eq_ok.mpr ⟨before, hbefore, hadd⟩, hall⟩

end Loop

/-! ## The rows -/

section Rows

variable {policies : List WorkloadPolicy} {pods : List Pod} {rows : List WorkloadProtectionRow}
  {rowsByKey : GoMap NamespacedName WorkloadProtectionRow}

theorem Reported.workload_eq (h : Reported policies pods rowsByKey) {key : NamespacedName}
    (hrow : rowsByKey.lookup key = some row) : row.workload = key.string := by
  obtain ⟨w, rfl, pod, -, -, hdesc⟩ := h.made key row hrow
  exact hdesc.isOf.1

theorem Reported.nodup (h : Reported policies pods rowsByKey)
    (order : Order NamespacedName WorkloadProtectionRow)
    (hrows : rows.Perm ((order.range 0 rowsByKey).map Sigma.snd)) :
    (rows.map (·.workload)).Nodup := by
  rw [(hrows.map _).nodup_iff, List.map_map]
  refine (order.nodup_range 0 rowsByKey).of_map.map_on fun x hx y hy heq => ?_
  obtain ⟨key, row⟩ := x
  obtain ⟨key', row'⟩ := y
  have hlookup := (order.mem_range 0).mp hx
  have hlookup' := (order.mem_range 0).mp hy
  have hkey : key = key' := NamespacedName.string_injective <| by
    rw [← h.workload_eq hlookup, ← h.workload_eq hlookup']
    exact heq
  subst hkey
  rw [hlookup] at hlookup'
  cases hlookup'
  rfl

theorem countP_isOf_eq_one (hnodup : (rows.map (·.workload)).Nodup) {w : Workload}
    (hmem : row ∈ rows) (hrow : row.IsOf w) : rows.countP (fun r => r.IsOf w) = 1 := by
  have honly : rows.filter (fun r => r.IsOf w) = [row] := by
    refine List.perm_singleton.mp
      ((List.perm_ext_iff_of_nodup (hnodup.of_map.filter _) (List.nodup_singleton _)).mpr ?_)
    intro r
    rw [List.mem_filter, List.mem_singleton, decide_eq_true_iff]
    constructor
    · rintro ⟨hr, hisOf⟩
      exact List.inj_on_of_nodup_map hnodup hr hmem (hisOf.1.trans hrow.1.symm)
    · rintro rfl
      exact ⟨hmem, hrow⟩
  rw [List.countP_eq_length_filter, honly, List.length_singleton]

theorem Reported.complete_iff (h : Reported policies pods rowsByKey)
    (hnodup : (rows.map (·.workload)).Nodup)
    (hmem : ∀ row, row ∈ rows ↔ ∃ key, rowsByKey.lookup key = some row) :
    Complete pods policies rows ↔
      ∀ w w', (∃ pod ∈ pods, pod.IsOf w) → (∃ pod ∈ pods, pod.IsOf w') →
        w.ns = w'.ns → w.name = w'.name → w.kind = w'.kind := by
  constructor
  · intro hcomplete w w' hw hw' hns hname
    have hfind : ∀ v, (∃ pod ∈ pods, pod.IsOf v) → ∃ row ∈ rows, row.IsOf v := by
      intro v hv
      have hpos : 0 < rows.countP (fun row => row.IsOf v) := by rw [hcomplete.one v hv]; decide
      simpa using List.countP_pos_iff.mp hpos
    obtain ⟨row, hrow, hisOf⟩ := hfind w hw
    obtain ⟨row', hrow', hisOf'⟩ := hfind w' hw'
    have hkey : w.key = w'.key := by rw [Workload.key, Workload.key, hns, hname]
    -- both rows print the one name, so they are one row, and it has one kind
    have hsame : row = row' := List.inj_on_of_nodup_map hnodup hrow hrow'
      (by rw [hisOf.1, hisOf'.1, hkey])
    subst hsame
    rw [hisOf.unique hisOf']
  · intro hkinds
    refine ⟨fun w hw => ?_, fun row hrow => ?_⟩
    · obtain ⟨row, hrow⟩ := Option.isSome_iff_exists.mp (h.covered w hw)
      obtain ⟨w', hkey, pod, hpod, hisOf', hdesc⟩ := h.made w.key row hrow
      have hns : w'.ns = w.ns := congrArg NamespacedName.ns hkey
      have hname : w'.name = w.name := congrArg NamespacedName.name hkey
      have hkind := hkinds w' w ⟨pod, hpod, hisOf'⟩ hw hns hname
      refine countP_isOf_eq_one hnodup ((hmem row).mpr ⟨w.key, hrow⟩) ?_
      exact ⟨hkey ▸ hdesc.isOf.1, hkind ▸ hdesc.isOf.2⟩
    · obtain ⟨key, hkey⟩ := (hmem row).mp hrow
      obtain ⟨w, -, pod, hpod, hisOf, hdesc⟩ := h.made key row hkey
      exact ⟨w, pod, hpod, hisOf, hdesc⟩

end Rows

/-- For pods whose workloads can be read and policies whose modes are valid the report is built, and
it is complete if and only if no two workloads of one namespace and one name differ in kind. -/
theorem buildWorkloadProtectionRows_complete_iff
    (order : Order NamespacedName WorkloadProtectionRow) {pods : List Pod}
    {policies : List WorkloadPolicy}
    (hparse : ∀ pod ∈ pods, pod.policyName ≠ [] →
      ∃ info, getTruncatedWorkloadInfo pod.name pod.labels = .ok info)
    (hmodes : ∀ policy ∈ policies, ∃ m : Mode, policy.mode = m.string) :
    ∃ rows, buildWorkloadProtectionRows order pods policies = .ok rows ∧
      (Complete pods policies rows ↔
        ∀ w w', (∃ pod ∈ pods, pod.IsOf w) → (∃ pod ∈ pods, pod.IsOf w') →
          w.ns = w'.ns → w.name = w'.name → w.kind = w'.kind) := by
  obtain ⟨rowsByKey, hfold, hreported⟩ := foldlM_addPod_reported hmodes hparse
  let found := (order.range 0 rowsByKey).map Sigma.snd
  have hperm := List.perm_insertionSort (fun a b => a.workload ≤ b.workload) found
  refine ⟨found.insertionSort fun a b => a.workload ≤ b.workload, ?_, ?_⟩
  · rw [buildWorkloadProtectionRows, hfold]
    rfl
  · refine hreported.complete_iff (hreported.nodup order hperm) fun row => ?_
    rw [hperm.mem_iff, List.mem_map]
    constructor
    · rintro ⟨⟨key, r⟩, he, rfl⟩
      exact ⟨key, (order.mem_range 0).mp he⟩
    · rintro ⟨key, hkey⟩
      exact ⟨⟨key, row⟩, (order.mem_range 0).mpr hkey, rfl⟩

namespace Sample

def policyName : Bytes := [0x70]

/-- The Deployment `w`. -/
def deploymentPod : Pod where
  ns := ⟨[0x6e], by decide⟩
  name := [0x77, 0x2d, 0x61, 0x62, 0x63, 0x2d, 0x36, 0x71, 0x71, 0x38, 0x76]
  labels := ((∅ : GoMap String Bytes).insert policyLabelKey policyName).insert
    Podworkload.podTemplateHashLabel [0x61, 0x62, 0x63]

/-- The StatefulSet `w`. -/
def statefulSetPod : Pod where
  ns := ⟨[0x6e], by decide⟩
  name := [0x77, 0x2d, 0x30]
  labels := ((∅ : GoMap String Bytes).insert policyLabelKey policyName).insert
    Podworkload.statefulsetLabel [0x77, 0x2d, 0x30]

def deployment : Workload := ⟨⟨[0x6e], by decide⟩, .deployment, [0x77]⟩

def statefulSet : Workload := ⟨⟨[0x6e], by decide⟩, .statefulSet, [0x77]⟩

def policy : WorkloadPolicy := ⟨⟨[0x6e], by decide⟩, policyName, "protect", .ready⟩

theorem deploymentPod_isOf : deploymentPod.IsOf deployment :=
  ⟨by decide +kernel, rfl, false, by decide +kernel⟩

theorem statefulSetPod_isOf : statefulSetPod.IsOf statefulSet :=
  ⟨by decide +kernel, rfl, false, by decide +kernel⟩

theorem protect_valid : ∀ p ∈ [policy], ∃ m : Mode, p.mode = m.string := by
  intro p hp
  rw [List.mem_singleton.mp hp]
  exact ⟨.protect, rfl⟩

/-- Of a Deployment and a StatefulSet of one name only the Deployment is shown. -/
theorem buildWorkloadProtectionRows_same_name :
    ∃ rows, buildWorkloadProtectionRows .stored [deploymentPod, statefulSetPod] [policy] =
        .ok rows ∧
      rows.map (·.kind) = ["Deployment"] ∧
      ¬ Complete [deploymentPod, statefulSetPod] [policy] rows := by
  refine ⟨[⟨[0x6e, 0x2f, 0x77], "Deployment", policyName, "Protect", "Ready"⟩],
    by decide +kernel, rfl, fun h => ?_⟩
  have hone := h.one statefulSet ⟨statefulSetPod, by simp, statefulSetPod_isOf⟩
  exact absurd hone (by decide +kernel)

/-- A Deployment alone is shown. -/
theorem buildWorkloadProtectionRows_alone :
    ∃ rows, buildWorkloadProtectionRows .stored [deploymentPod] [policy] = .ok rows ∧
      Complete [deploymentPod] [policy] rows := by
  obtain ⟨rows, hrows, hiff⟩ := buildWorkloadProtectionRows_complete_iff .stored
    (fun pod hpod _ => by
      obtain ⟨-, -, truncated, hinfo⟩ := deploymentPod_isOf
      rw [List.mem_singleton.mp hpod]
      exact ⟨_, hinfo⟩)
    protect_valid
  refine ⟨rows, hrows, hiff.mpr ?_⟩
  rintro w w' ⟨pod, hpod, hw⟩ ⟨pod', hpod', hw'⟩ - -
  rw [List.mem_singleton.mp hpod] at hw
  rw [List.mem_singleton.mp hpod'] at hw'
  rw [hw.unique hw']

end Sample

end RuntimeEnforcer.Kubectlplugin
