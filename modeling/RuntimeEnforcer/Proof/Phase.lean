import RuntimeEnforcer.Proof.NodeStatus

/-!
# The phase of a policy

From what the nodes say to the phase that is shown. What a node's report means for a policy is read
off the report (`NodeReport.isReady`, `NodeReport.isFailing`); `getNodeStatusByPolicy` turns it into
one entry a node with the code for that meaning (`nodes_getNodeStatusByPolicy`, `nodeStatusOf_code`
lemmas). `processPolicyNodeStatus` counts the codes (`Summary`) and lists the first nineteen names
of each kind, with a marker behind them when there are more (`keys_issues`, `names_transitioning`).
The phase follows from the counters.
-/

set_option autoImplicit false

namespace RuntimeEnforcer.Api

open Lib

/-! ## What a report means -/

variable {wp : WorkloadPolicy}

/-- The status a node gives for a policy; none when there is no client, no answer, or no status in
it. -/
def NodeReport.statusFor (report : NodeReport) (wp : WorkloadPolicy) :
    Option RuntimeEnforcer.PolicyStatus :=
  match report with
  | .noClient => none
  | .failed => none
  | .policies statuses => (statuses.lookup wp.namespacedName).join

/-- The node has answered with the policy in state READY and in the mode of its spec. -/
def NodeReport.isReady (report : NodeReport) (wp : WorkloadPolicy) : Bool :=
  (report.statusFor wp).any fun st => st.state = .ready ∧ st.mode = wp.mode.toProto

/-- The node gives no status for the policy, or one in another state than READY. -/
def NodeReport.isFailing (report : NodeReport) (wp : WorkloadPolicy) : Bool :=
  (report.statusFor wp).all fun st => st.state ≠ .ready

/-- The node is on its way: READY, in another mode. -/
def NodeReport.isTransitioning (report : NodeReport) (wp : WorkloadPolicy) : Bool :=
  !report.isReady wp && !report.isFailing wp

theorem nodeStatusOf_code_eq (nodeName : String) (report : NodeReport) (wp : WorkloadPolicy) :
    (nodeStatusOf nodeName report wp).code =
      match report.statusFor wp with
      | none => .missing
      | some st =>
        if st.state = .ready then if st.mode = wp.mode.toProto then .ready else .transitioning
        else .failed := by
  cases report with
  | noClient => rfl
  | failed => rfl
  | policies statuses =>
    unfold nodeStatusOf NodeReport.statusFor
    dsimp only
    by_cases hempty : statuses.entries = []
    · have hnone : statuses.lookup wp.namespacedName = none := by
        refine Option.eq_none_iff_forall_ne_some.mpr fun v hv => ?_
        rw [← GoMap.mem_entries, hempty] at hv
        cases hv
      rw [if_pos hempty, hnone]
      rfl
    · rw [if_neg hempty]
      cases (statuses.lookup wp.namespacedName).join with
      | none => rfl
      | some st =>
        unfold policyNodeStatus
        cases hstate : st.state with
        | ready => by_cases hmode : st.mode = wp.mode.toProto <;> simp [hstate, hmode]
        | error => simp [hstate]
        | unspecified => simp [hstate]
        | unrecognized number h => simp [hstate]

section Codes

variable (nodeName : String) (report : NodeReport) (wp : WorkloadPolicy)

theorem nodeStatusOf_code_issue :
    (nodeStatusOf nodeName report wp).code.isIssue = report.isFailing wp := by
  rw [nodeStatusOf_code_eq, NodeReport.isFailing, PolicyCode.isIssue]
  cases report.statusFor wp with
  | none => simp
  | some st =>
    by_cases h : st.state = .ready <;> by_cases h' : st.mode = wp.mode.toProto <;> simp [h, h']

theorem nodeStatusOf_code_transitioning :
    decide ((nodeStatusOf nodeName report wp).code = .transitioning) =
      report.isTransitioning wp := by
  rw [nodeStatusOf_code_eq, NodeReport.isTransitioning, NodeReport.isReady, NodeReport.isFailing]
  cases report.statusFor wp with
  | none => simp
  | some st =>
    by_cases h : st.state = .ready <;> by_cases h' : st.mode = wp.mode.toProto <;> simp [h, h']

end Codes

theorem NodeReport.not_failing_of_ready {report : NodeReport} (h : report.isReady wp = true) :
    report.isFailing wp = false := by
  unfold NodeReport.isReady at h
  unfold NodeReport.isFailing
  cases hst : report.statusFor wp with
  | none => simp [hst] at h
  | some st =>
    have hready : st.state = .ready ∧ st.mode = wp.mode.toProto := by simpa [hst] using h
    simp [hready.1]

@[simp] theorem nodeStatusOf_nodeName (nodeName : String) (report : NodeReport)
    (wp : WorkloadPolicy) : (nodeStatusOf nodeName report wp).nodeName = nodeName := by
  unfold nodeStatusOf
  cases report with
  | noClient => rfl
  | failed => rfl
  | policies statuses =>
    dsimp only
    split
    · rfl
    · split <;> rfl

/-! ## One entry a node -/

variable {policies : List WorkloadPolicy}

theorem filter_namespacedName (hnames : (policies.map fun wp => wp.namespacedName).Nodup)
    (hwp : wp ∈ policies) :
    policies.filter (fun p => wp.namespacedName = p.namespacedName) = [wp] := by
  induction policies with
  | nil => cases hwp
  | cons p policies ih =>
    rw [List.map_cons, List.nodup_cons] at hnames
    rcases List.mem_cons.mp hwp with rfl | hrest
    · have hnone : policies.filter (fun p => wp.namespacedName = p.namespacedName) = [] := by
        refine List.filter_eq_nil_iff.mpr fun p hp heq => hnames.1 ?_
        rw [of_decide_eq_true heq]
        exact List.mem_map_of_mem hp
      rw [List.filter_cons_of_pos (by simp), hnone]
    · have hne : ¬ wp.namespacedName = p.namespacedName := fun heq =>
        hnames.1 (heq ▸ List.mem_map_of_mem hrest)
      rw [List.filter_cons_of_neg (by simpa using hne)]
      exact ih hnames.2 hrest

theorem lookup_foldl_appendAt (f : WorkloadPolicy → PolicyNodeStatus)
    (m : GoMap NamespacedPolicyName (List PolicyNodeStatus)) (name : NamespacedPolicyName) :
    ((policies.foldl (fun m wp => appendAt m wp.namespacedName (f wp)) m).lookup name).getD [] =
      (m.lookup name).getD [] ++ (policies.filter fun p => name = p.namespacedName).map f := by
  induction policies generalizing m with
  | nil => simp
  | cons p policies ih =>
    rw [List.foldl_cons, ih, lookup_appendAt, List.append_assoc]
    by_cases h : name = p.namespacedName
    · simp [h]
    · simp [h]

/-- **One entry a node.** -/
theorem nodes_getNodeStatusByPolicy (reports : List (String × NodeReport))
    (hnames : (policies.map fun wp => wp.namespacedName).Nodup) (hwp : wp ∈ policies) :
    ((getNodeStatusByPolicy reports policies).lookup wp.namespacedName).getD [] =
      reports.map fun r => nodeStatusOf r.1 r.2 wp := by
  have hstart : ((policies.foldl (fun m wp => m.insert wp.namespacedName [])
      (∅ : GoMap NamespacedPolicyName (List PolicyNodeStatus))).lookup wp.namespacedName).getD [] =
      [] := by
    refine List.foldlRecOn (motive := fun m : GoMap NamespacedPolicyName (List PolicyNodeStatus) =>
      (m.lookup wp.namespacedName).getD [] = []) policies _ rfl fun m hm p _ => ?_
    rw [GoMap.lookup_insert_eq]
    split
    · rfl
    · exact hm
  unfold getNodeStatusByPolicy
  generalize policies.foldl (fun m wp => m.insert wp.namespacedName [])
    (∅ : GoMap NamespacedPolicyName (List PolicyNodeStatus)) = start at hstart
  -- each report appends one entry, whatever is there already
  have hloop : ∀ m : GoMap NamespacedPolicyName (List PolicyNodeStatus),
      ((reports.foldl (fun m r => policies.foldl (fun m wp =>
        appendAt m wp.namespacedName (nodeStatusOf r.1 r.2 wp)) m) m).lookup
          wp.namespacedName).getD [] =
        (m.lookup wp.namespacedName).getD [] ++ reports.map fun r => nodeStatusOf r.1 r.2 wp := by
    induction reports with
    | nil => simp
    | cons r reports ih =>
      intro m
      rw [List.foldl_cons, ih, lookup_foldl_appendAt, filter_namespacedName hnames hwp,
        List.append_assoc]
      rfl
  simp only [hloop, hstart, List.nil_append]

/-! ## The names that are listed -/

variable {names : List String} {n : PolicyNodeStatus} {s previous s' : WorkloadPolicyStatus}
  {now : Time}

/-- The first nineteen names, and a marker when there are more. -/
def capped (names : List String) : List String :=
  names.take 19 ++ if 20 ≤ names.length then [truncationString] else []

theorem length_capped (names : List String) : (capped names).length = min names.length 20 := by
  unfold capped
  split
  · rw [List.length_append, List.length_take, List.length_singleton]
    omega
  · rw [List.append_nil, List.length_take]
    omega

theorem capped_push_lt (name : String) (h : names.length < 19) :
    capped (names ++ [name]) = capped names ++ [name] := by
  have hlen : (names ++ [name]).length = names.length + 1 := by simp
  rw [capped, capped, if_neg (by omega), if_neg (by omega), List.take_of_length_le (by omega),
    List.take_of_length_le (by omega)]
  simp

theorem capped_push_eq (name : String) (h : names.length = 19) :
    capped (names ++ [name]) = capped names ++ [truncationString] := by
  have hlen : (names ++ [name]).length = names.length + 1 := by simp
  rw [capped, capped, if_pos (by omega), if_neg (by omega),
    List.take_append_of_le_length (by omega)]
  simp

theorem capped_push_gt (name : String) (h : 20 ≤ names.length) :
    capped (names ++ [name]) = capped names := by
  have hlen : (names ++ [name]).length = names.length + 1 := by simp
  rw [capped, capped, if_pos (by omega), if_pos h, List.take_append_of_le_length (by omega)]

theorem mem_capped {name : String} (h : name ∈ capped names) :
    name ∈ names ∨ name = truncationString := by
  rcases List.mem_append.mp h with htake | hmark
  · exact .inl (List.mem_of_mem_take htake)
  · split at hmark
    · exact .inr (List.mem_singleton.mp hmark)
    · cases hmark

theorem names_transitioning (nodes : List PolicyNodeStatus) :
    (nodes.foldl (listTransitioning previous now) []).map (fun n => n.nodeName) =
      capped (nodes.map fun n => n.nodeName) := by
  induction nodes using List.reverseRecOn with
  | nil => rfl
  | append_singleton nodes n ih =>
    have hlen := congrArg List.length ih
    rw [List.length_map, length_capped, List.length_map] at hlen
    rw [List.foldl_append, List.foldl_cons, List.foldl_nil, List.map_append, List.map_singleton]
    generalize nodes.foldl (listTransitioning previous now) [] = l at ih hlen ⊢
    unfold listTransitioning maxTransitioningNodes
    split
    · rw [capped_push_lt _ (by rw [List.length_map]; omega), ← ih, List.map_append]
      rfl
    · split
      · rw [capped_push_eq _ (by rw [List.length_map]; omega), ← ih, List.map_append]
        rfl
      · rw [capped_push_gt _ (by rw [List.length_map]; omega), ← ih]

theorem keys_issues {nodes : List PolicyNodeStatus}
    (hnames : (nodes.map fun n => n.nodeName).Nodup)
    (hmark : truncationString ∉ nodes.map fun n => n.nodeName) :
    (nodes.foldl (listIssue previous now) ∅).keys =
      (capped (nodes.map fun n => n.nodeName)).reverse := by
  induction nodes using List.reverseRecOn with
  | nil => rfl
  | append_singleton nodes n ih =>
    rw [List.map_append, List.map_singleton] at hnames hmark ⊢
    obtain ⟨hbefore, -, hapart⟩ := List.nodup_append.mp hnames
    rw [List.mem_append, not_or] at hmark
    have hkeys := ih hbefore hmark.1
    have hlen : (nodes.foldl (listIssue previous now) ∅).entries.length = min nodes.length 20 := by
      have hlen := congrArg List.length hkeys
      rw [List.length_reverse, length_capped, List.length_map, AList.keys, List.keys,
        List.length_map] at hlen
      exact hlen
    rw [List.foldl_append, List.foldl_cons, List.foldl_nil]
    generalize nodes.foldl (listIssue previous now) ∅ = m at hkeys hlen ⊢
    unfold listIssue maxNodesWithIssues
    split
    · -- the name is new, and it is not the marker
      have hfresh : n.nodeName ∉ m.keys := by
        rw [hkeys, List.mem_reverse]
        intro hmem
        rcases mem_capped hmem with hold | heq
        · exact hapart _ hold _ (List.mem_singleton_self _) rfl
        · exact hmark.2 (heq ▸ List.mem_singleton_self _)
      rw [capped_push_lt _ (by rw [List.length_map]; omega), AList.keys_insert,
        List.erase_of_not_mem hfresh, hkeys, List.reverse_append]
      rfl
    · split
      · have hfresh : truncationString ∉ m.keys := by
          rw [hkeys, List.mem_reverse, capped, if_neg (by rw [List.length_map]; omega),
            List.append_nil]
          exact fun hmem => hmark.1 (List.mem_of_mem_take hmem)
        rw [capped_push_eq _ (by rw [List.length_map]; omega), AList.keys_insert,
          List.erase_of_not_mem hfresh, hkeys, List.reverse_append]
        rfl
      · rw [capped_push_gt _ (by rw [List.length_map]; omega), hkeys]

/-! ## The phase -/

/-- `listed` has the first nineteen of the names, and the marker when there are more. -/
structure Capped (names listed : List String) : Prop where
  real : (listed.filter (· ≠ truncationString)).length = min names.length 19
  named : ∀ name ∈ listed, name ≠ truncationString → name ∈ names
  marker : listed.count truncationString = if 20 ≤ names.length then 1 else 0

theorem Capped.of_perm {listed : List String} (hname : truncationString ∉ names)
    (hperm : listed.Perm (capped names)) : Capped names listed := by
  have htake : truncationString ∉ names.take 19 := fun h => hname (List.mem_of_mem_take h)
  have hkeep : (names.take 19).filter (· ≠ truncationString) = names.take 19 :=
    List.filter_eq_self.mpr fun name hmem => decide_eq_true fun heq => htake (heq ▸ hmem)
  refine ⟨?_, fun name hmem hne => ?_, ?_⟩
  · rw [(hperm.filter _).length_eq, capped, List.filter_append, hkeep, List.length_append,
      List.length_take]
    split <;> simp <;> omega
  · exact (mem_capped (hperm.mem_iff.mp hmem)).resolve_right hne
  · rw [hperm.count_eq, capped, List.count_append, List.count_eq_zero_of_not_mem htake]
    split <;> simp

theorem Summary.phase_iff {nodes : List PolicyNodeStatus} (h : Summary previous nodes now s)
    (hknown : ∀ n ∈ nodes, n.code ≠ .unknown) :
    (s.phase = .ready ↔ (issuesOf nodes).length = 0 ∧ (transitioningOf nodes).length = 0) ∧
    (s.phase = .failed ↔ 0 < (issuesOf nodes).length) ∧
    (s.phase = .transitioning ↔
      (issuesOf nodes).length = 0 ∧ 0 < (transitioningOf nodes).length) := by
  have hsum := length_kinds hknown
  rw [h.phase]
  generalize (issuesOf nodes).length = failed at hsum ⊢
  generalize (transitioningOf nodes).length = moving at hsum ⊢
  by_cases hready : (readyOf nodes).length = nodes.length
  · rw [if_pos hready]
    simp
    omega
  · rw [if_neg hready]
    by_cases hfailed : 0 < failed
    · rw [if_pos hfailed]
      simp
      omega
    · rw [if_neg hfailed]
      simp
      omega

/-- What a policy's status says of its nodes, against what they have reported. -/
structure PhaseSound (wp : WorkloadPolicy) (reports : List (String × NodeReport))
    (s : WorkloadPolicyStatus) : Prop where
  total : s.totalNodes = reports.length
  sum : s.successfulNodes + s.transitioningNodes + s.failedNodes = s.totalNodes
  ready : s.phase = .ready ↔ ∀ r ∈ reports, r.2.isReady wp = true
  failed : s.phase = .failed ↔ ∃ r ∈ reports, r.2.isFailing wp = true
  transitioning : s.phase = .transitioning ↔
    ¬ (∀ r ∈ reports, r.2.isReady wp = true) ∧ ¬ ∃ r ∈ reports, r.2.isFailing wp = true
  issues : Capped ((reports.filter fun r => r.2.isFailing wp).map Prod.fst) s.nodesWithIssues.keys
  inTransition : Capped ((reports.filter fun r => r.2.isTransitioning wp).map Prod.fst)
    (s.nodesTransitioning.map fun n => n.nodeName)

section Reports

variable {wp : WorkloadPolicy} {reports : List (String × NodeReport)}

theorem names_filter_reports (kind : PolicyCode → Bool) (means : NodeReport → Bool)
    (reports : List (String × NodeReport))
    (h : ∀ name report, kind (nodeStatusOf name report wp).code = means report) :
    ((reports.map fun r => nodeStatusOf r.1 r.2 wp).filter fun n => kind n.code).map
      (fun n => n.nodeName) = (reports.filter fun r => means r.2).map Prod.fst := by
  rw [List.filter_map, List.map_map]
  have hkind : ((fun n : PolicyNodeStatus => kind n.code) ∘ fun r : String × NodeReport =>
      nodeStatusOf r.1 r.2 wp) = fun r => means r.2 := funext fun r => h r.1 r.2
  rw [hkind]
  exact List.map_congr_left fun r _ => nodeStatusOf_nodeName r.1 r.2 wp

theorem length_filter_reports (means : NodeReport → Bool) :
    ((reports.filter fun r => means r.2).map Prod.fst).length = 0 ↔
      ∀ r ∈ reports, means r.2 = false := by
  rw [List.length_map, List.length_eq_zero_iff, List.filter_eq_nil_iff]
  simp

theorem codes_nodeStatusOf (reports : List (String × NodeReport)) (wp : WorkloadPolicy) :
    ∀ n ∈ reports.map fun r => nodeStatusOf r.1 r.2 wp, n.code ≠ .unknown := by
  intro n hn
  obtain ⟨r, _, rfl⟩ := List.mem_map.mp hn
  exact nodeStatusOf_code r.1 r.2 wp

theorem forall_isReady_iff :
    ((∀ r ∈ reports, r.2.isFailing wp = false) ∧ ∀ r ∈ reports, r.2.isTransitioning wp = false) ↔
      ∀ r ∈ reports, r.2.isReady wp = true := by
  constructor
  · rintro ⟨h₁, h₂⟩ r hr
    simpa [NodeReport.isTransitioning, h₁ r hr] using h₂ r hr
  · intro h
    refine ⟨fun r hr => NodeReport.not_failing_of_ready (h r hr), fun r hr => ?_⟩
    simp [NodeReport.isTransitioning, h r hr]

theorem phaseSound_of_ok (hnodes : (reports.map Prod.fst).Nodup)
    (hvalid : truncationString ∉ reports.map Prod.fst)
    (hok : s.processPolicyNodeStatus previous (reports.map fun r => nodeStatusOf r.1 r.2 wp) now =
      .ok s') : PhaseSound wp reports s' := by
  have hknown := codes_nodeStatusOf reports wp
  have hfailing := names_filter_reports PolicyCode.isIssue (fun report => report.isFailing wp)
    reports fun name report => nodeStatusOf_code_issue name report wp
  have hmoving := names_filter_reports (· = .transitioning)
    (fun report => report.isTransitioning wp) reports
    fun name report => nodeStatusOf_code_transitioning name report wp
  have hsum := summary_of_ok hok
  have htotal : (reports.map fun r => nodeStatusOf r.1 r.2 wp).length = reports.length :=
    List.length_map _
  generalize (reports.map fun r => nodeStatusOf r.1 r.2 wp) = nodes at *
  have hnoFailing : (issuesOf nodes).length = 0 ↔ ∀ r ∈ reports, r.2.isFailing wp = false := by
    rw [← length_filter_reports fun report => report.isFailing wp, ← hfailing, List.length_map]
    rfl
  have hnoMoving : (transitioningOf nodes).length = 0 ↔
      ∀ r ∈ reports, r.2.isTransitioning wp = false := by
    rw [← length_filter_reports fun report => report.isTransitioning wp, ← hmoving,
      List.length_map]
    rfl
  have hsomeFailing : 0 < (issuesOf nodes).length ↔ ∃ r ∈ reports, r.2.isFailing wp = true := by
    rw [Nat.pos_iff_ne_zero, ne_eq, hnoFailing]
    simp
  have hallReady : ((issuesOf nodes).length = 0 ∧ (transitioningOf nodes).length = 0) ↔
      ∀ r ∈ reports, r.2.isReady wp = true := by
    rw [hnoFailing, hnoMoving]
    exact forall_isReady_iff
  have hvalidOf : ∀ p : String × NodeReport → Bool,
      truncationString ∉ (reports.filter p).map Prod.fst := fun p hmem =>
    hvalid (List.map_subset _ (List.filter_subset_self reports) hmem)
  obtain ⟨hready, hfailed, htransitioning⟩ := hsum.phase_iff hknown
  refine ⟨hsum.total.trans htotal, ?_, ?_, ?_, ?_, ?_, ?_⟩
  · rw [hsum.total, hsum.successful, hsum.transitioning, hsum.failed, length_kinds hknown]
    omega
  · rw [hready, hallReady]
  · rw [hfailed, hsomeFailing]
  · rw [htransitioning, ← hallReady, ← hsomeFailing]
    omega
  · refine Capped.of_perm (hvalidOf _) ?_
    have hnames : ((reports.filter fun r => r.2.isFailing wp).map Prod.fst).Nodup :=
      hnodes.sublist (List.filter_sublist.map _)
    rw [← hfailing] at hnames ⊢
    rw [hsum.nodesWithIssues, issuesOf, keys_issues hnames (hfailing ▸ hvalidOf _)]
    exact List.reverse_perm _
  · refine Capped.of_perm (hvalidOf _) ?_
    rw [← hmoving, ← names_transitioning, hsum.nodesTransitioning]
    exact (List.perm_insertionSort _ _).map _

end Reports

/-- **The phase is sound.** For policies with names of their own and nodes with names of their own,
none of them the marker: each policy gets one entry a node, the status is recomputed from them
without an error whatever it was before, and says what the nodes have reported. -/
theorem phase_sound {policies : List WorkloadPolicy}
    (hnames : (policies.map fun wp => wp.namespacedName).Nodup)
    {reports : List (String × NodeReport)} (hnodes : (reports.map Prod.fst).Nodup)
    (hvalid : truncationString ∉ reports.map Prod.fst) {wp : WorkloadPolicy} (hwp : wp ∈ policies)
    (s previous : WorkloadPolicyStatus) (now : Time) :
    let nodes := ((getNodeStatusByPolicy reports policies).lookup wp.namespacedName).getD []
    nodes.map (fun n => n.nodeName) = reports.map Prod.fst ∧
      ∃ s', s.processPolicyNodeStatus previous nodes now = .ok s' ∧ PhaseSound wp reports s' := by
  rw [nodes_getNodeStatusByPolicy reports hnames hwp]
  have hok := processPolicyNodeStatus_ok s previous now (codes_nodeStatusOf reports wp)
  refine ⟨?_, _, hok, phaseSound_of_ok hnodes hvalid hok⟩
  rw [List.map_map]
  exact List.map_congr_left fun r _ => nodeStatusOf_nodeName r.1 r.2 wp

namespace Sample

def rolledOut : WorkloadPolicy where
  ns := RuntimeEnforcer.Sample.prod
  name := "api"
  name_ne := by decide
  mode := .protect
  rulesByContainer := ∅

/-- One node has the policy, the other has no agent. -/
def twoNodes : List (String × NodeReport) :=
  [("node-1", .policies (AList.singleton "prod/api" (some { state := .ready, mode := .protect }))),
   ("node-2", .noClient)]

theorem twoNodes_failed :
    ∃ s', ({} : WorkloadPolicyStatus).processPolicyNodeStatus {}
        (((getNodeStatusByPolicy twoNodes [rolledOut]).lookup rolledOut.namespacedName).getD [])
        0 = .ok s' ∧ s'.totalNodes = 2 ∧ s'.phase = .failed := by
  obtain ⟨_, s', hok, hsound⟩ := phase_sound
    (show ([rolledOut].map fun wp => wp.namespacedName).Nodup by simp)
    (show (twoNodes.map Prod.fst).Nodup by decide) (by decide) (List.mem_singleton.mpr rfl) {} {} 0
  exact ⟨s', hok, hsound.total, hsound.failed.mpr ⟨("node-2", .noClient), by simp [twoNodes], rfl⟩⟩

end Sample

end RuntimeEnforcer.Api
