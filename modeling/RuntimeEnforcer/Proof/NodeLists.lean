import RuntimeEnforcer.Api.NodeStatus

/-!
# The two lists of nodes

The loop of `processPolicyNodeStatus` fills a map with the nodes that have issues and a list with
those on their way, and cuts both off at nineteen names. Each node goes to one of the two or to
neither, so the loop is two loops (`processNodes_eq`): what becomes of the map depends on the nodes
with issues and their order only, and likewise for the list. With that, `processPolicyNodeStatus`
is a function of the nodes that fails on an unknown code and on nothing else
(`processPolicyNodeStatus_eq_ok_iff`): its counters always add up. The rest of this file is about
the two lists.
-/

set_option autoImplicit false

namespace RuntimeEnforcer.Api

open Lib

/-! ## One loop for each list -/

variable {n : PolicyNodeStatus} {nodes : List PolicyNodeStatus}

/-- The codes of a node with issues. -/
def PolicyCode.isIssue (code : PolicyCode) : Bool := code = .failed ∨ code = .missing

def issuesOf (nodes : List PolicyNodeStatus) : List PolicyNodeStatus :=
  nodes.filter fun n => n.code.isIssue

def transitioningOf (nodes : List PolicyNodeStatus) : List PolicyNodeStatus :=
  nodes.filter fun n => n.code = .transitioning

def readyOf (nodes : List PolicyNodeStatus) : List PolicyNodeStatus :=
  nodes.filter fun n => n.code = .ready

section Lists

variable (previous : WorkloadPolicyStatus) (now : Time)

def listedAs (n : PolicyNodeStatus) : PolicyStatus where
  code := n.code
  message := n.message
  since := transitionTime (previous.nodeStatus n.nodeName) n.toPolicyStatus now

/-- `NodesWithIssues` after one more of them. -/
def listIssue (m : GoMap String PolicyStatus) (n : PolicyNodeStatus) : GoMap String PolicyStatus :=
  if m.entries.length < maxNodesWithIssues - 1 then m.insert n.nodeName (listedAs previous now n)
  else if m.entries.length = maxNodesWithIssues - 1 then
    m.insert truncationString { code := .failed, message := truncationMessage }
  else m

/-- `NodesTransitioning` after one more of them. -/
def listTransitioning (l : List PolicyNodeStatus) (n : PolicyNodeStatus) :
    List PolicyNodeStatus :=
  if l.length < maxTransitioningNodes - 1 then l ++ [⟨listedAs previous now n, n.nodeName⟩]
  else if l.length = maxTransitioningNodes - 1 then l ++ [{ nodeName := truncationString }]
  else l

theorem addNodeIssue_eq (s : WorkloadPolicyStatus) (n : PolicyNodeStatus) :
    s.addNodeIssue n.nodeName { code := n.code, message := n.message }
        (previous.nodeStatus n.nodeName) now =
      { s with
        failedNodes := s.failedNodes + 1
        nodesWithIssues := listIssue previous now s.nodesWithIssues n } := by
  unfold WorkloadPolicyStatus.addNodeIssue listIssue
  dsimp only
  split
  · rfl
  · split <;> rfl

theorem addTransitioningNode_eq (s : WorkloadPolicyStatus) (n : PolicyNodeStatus) :
    s.addTransitioningNode n (previous.nodeStatus n.nodeName) now =
      { s with
        transitioningNodes := s.transitioningNodes + 1
        nodesTransitioning := listTransitioning previous now s.nodesTransitioning n } := by
  unfold WorkloadPolicyStatus.addTransitioningNode listTransitioning
  dsimp only
  split
  · rfl
  · split <;> rfl

/-- The status after the nodes, one list at a time. -/
def summarise (s : WorkloadPolicyStatus) (nodes : List PolicyNodeStatus) : WorkloadPolicyStatus :=
  { s with
    successfulNodes := s.successfulNodes + (readyOf nodes).length
    transitioningNodes := s.transitioningNodes + (transitioningOf nodes).length
    failedNodes := s.failedNodes + (issuesOf nodes).length
    nodesTransitioning :=
      (transitioningOf nodes).foldl (listTransitioning previous now) s.nodesTransitioning
    nodesWithIssues := (issuesOf nodes).foldl (listIssue previous now) s.nodesWithIssues }

variable {previous now}

theorem processNode_eq (h : n.code ≠ .unknown) (s : WorkloadPolicyStatus) :
    WorkloadPolicyStatus.processNode previous now s n = .ok (summarise previous now s [n]) := by
  unfold WorkloadPolicyStatus.processNode summarise readyOf transitioningOf issuesOf
  cases hcode : n.code with
  | ready => simp [hcode, PolicyCode.isIssue]
  | transitioning => simp [hcode, PolicyCode.isIssue, addTransitioningNode_eq]
  | failed =>
    have heq := addNodeIssue_eq previous now s n
    rw [hcode] at heq
    simp [hcode, PolicyCode.isIssue, heq]
  | missing =>
    have heq := addNodeIssue_eq previous now s n
    rw [hcode] at heq
    simp [hcode, PolicyCode.isIssue, heq]
  | unknown => exact absurd hcode h

theorem summarise_cons (s : WorkloadPolicyStatus) (n : PolicyNodeStatus)
    (nodes : List PolicyNodeStatus) :
    summarise previous now (summarise previous now s [n]) nodes =
      summarise previous now s (n :: nodes) := by
  have hsplit : n :: nodes = [n] ++ nodes := rfl
  rw [hsplit]
  simp only [summarise, readyOf, transitioningOf, issuesOf, List.filter_append, List.length_append,
    List.foldl_append, Nat.add_assoc]

/-- **The loop is one loop for each list.** -/
theorem processNodes_eq (h : ∀ n ∈ nodes, n.code ≠ .unknown) (s : WorkloadPolicyStatus) :
    nodes.foldlM (WorkloadPolicyStatus.processNode previous now) s =
      .ok (summarise previous now s nodes) := by
  induction nodes generalizing s with
  | nil => rfl
  | cons n nodes ih =>
    rw [List.foldlM_cons, processNode_eq (h n List.mem_cons_self)]
    show nodes.foldlM _ (summarise previous now s [n]) = _
    rw [ih (fun m hm => h m (List.mem_cons_of_mem n hm)), summarise_cons]

end Lists

theorem length_kinds (h : ∀ n ∈ nodes, n.code ≠ .unknown) :
    nodes.length = (issuesOf nodes).length + (transitioningOf nodes).length +
      (readyOf nodes).length := by
  induction nodes with
  | nil => rfl
  | cons n nodes ih =>
    have hrest := ih fun m hm => h m (List.mem_cons_of_mem n hm)
    have hn := h n List.mem_cons_self
    simp only [issuesOf, transitioningOf, readyOf] at hrest ⊢
    cases hcode : n.code with
    | unknown => exact absurd hcode hn
    | ready | transitioning | failed | missing =>
      simp [hcode, PolicyCode.isIssue] at hrest ⊢
      omega

theorem processNodes_error (previous : WorkloadPolicyStatus) (now : Time)
    (h : ∃ n ∈ nodes, n.code = .unknown) (s : WorkloadPolicyStatus) :
    ∃ e, nodes.foldlM (WorkloadPolicyStatus.processNode previous now) s = .error e := by
  induction nodes generalizing s with
  | nil => simp at h
  | cons n nodes ih =>
    rw [List.foldlM_cons]
    by_cases hn : n.code = .unknown
    · refine ⟨.unknownNodeStatus n.code n.nodeName, ?_⟩
      simp [WorkloadPolicyStatus.processNode, hn, bind, Except.bind]
    · obtain ⟨n', hn', hunknown⟩ := h
      have hlater : n' ∈ nodes := (List.mem_cons.mp hn').resolve_left fun heq => hn (heq ▸ hunknown)
      rw [processNode_eq hn]
      exact ih ⟨n', hlater, hunknown⟩ _

/-- The status that `processPolicyNodeStatus` makes of nodes of known codes. -/
def summarised (s previous : WorkloadPolicyStatus) (nodes : List PolicyNodeStatus) (now : Time) :
    WorkloadPolicyStatus :=
  let t := summarise previous now (s.resetPolicyNodeStatus nodes.length) nodes
  { t with
    nodesTransitioning := t.nodesTransitioning.insertionSort fun a b => a.nodeName ≤ b.nodeName
    phase := t.phaseOf }

variable {s s' previous : WorkloadPolicyStatus} {now : Time}

/-- **`processPolicyNodeStatus` fails on an unknown code, and on nothing else.** -/
theorem processPolicyNodeStatus_eq_ok_iff :
    s.processPolicyNodeStatus previous nodes now = .ok s' ↔
      (∀ n ∈ nodes, n.code ≠ .unknown) ∧ s' = summarised s previous nodes now := by
  by_cases h : ∀ n ∈ nodes, n.code ≠ .unknown
  · have hsum := length_kinds h
    have hcounts : ¬ nodes.length ≠ 0 + (issuesOf nodes).length +
        (0 + (transitioningOf nodes).length) + (0 + (readyOf nodes).length) := by omega
    have hok : s.processPolicyNodeStatus previous nodes now =
        .ok (summarised s previous nodes now) := by
      rw [WorkloadPolicyStatus.processPolicyNodeStatus, processNodes_eq h]
      exact if_neg hcounts
    rw [hok, Except.ok.injEq]
    exact ⟨fun heq => ⟨h, heq.symm⟩, fun heq => heq.2.symm⟩
  · have hunknown : ∃ n ∈ nodes, n.code = .unknown := by simpa using h
    obtain ⟨e, he⟩ :=
      processNodes_error previous now hunknown (s.resetPolicyNodeStatus nodes.length)
    rw [WorkloadPolicyStatus.processPolicyNodeStatus, he]
    exact ⟨fun heq => absurd heq (by simp [bind, Except.bind]), fun heq => absurd heq.1 h⟩

theorem processPolicyNodeStatus_ok (s previous : WorkloadPolicyStatus) (now : Time)
    (h : ∀ n ∈ nodes, n.code ≠ .unknown) :
    s.processPolicyNodeStatus previous nodes now = .ok (summarised s previous nodes now) :=
  processPolicyNodeStatus_eq_ok_iff.mpr ⟨h, rfl⟩

/-- What `processPolicyNodeStatus` returns. -/
structure Summary (previous : WorkloadPolicyStatus) (nodes : List PolicyNodeStatus) (now : Time)
    (s' : WorkloadPolicyStatus) : Prop where
  total : s'.totalNodes = nodes.length
  successful : s'.successfulNodes = (readyOf nodes).length
  transitioning : s'.transitioningNodes = (transitioningOf nodes).length
  failed : s'.failedNodes = (issuesOf nodes).length
  phase : s'.phase = if (readyOf nodes).length = nodes.length then .ready
    else if 0 < (issuesOf nodes).length then .failed else .transitioning
  nodesTransitioning : s'.nodesTransitioning =
    ((transitioningOf nodes).foldl (listTransitioning previous now) []).insertionSort
      fun a b => a.nodeName ≤ b.nodeName
  nodesWithIssues : s'.nodesWithIssues = (issuesOf nodes).foldl (listIssue previous now) ∅

theorem summary_of_ok (h : s.processPolicyNodeStatus previous nodes now = .ok s') :
    Summary previous nodes now s' := by
  obtain ⟨hknown, rfl⟩ := processPolicyNodeStatus_eq_ok_iff.mp h
  have hsum := length_kinds hknown
  refine ⟨rfl, Nat.zero_add _, Nat.zero_add _, Nat.zero_add _, ?_, rfl, rfl⟩
  show WorkloadPolicyStatus.phaseOf _ = _
  simp only [WorkloadPolicyStatus.phaseOf, summarise, WorkloadPolicyStatus.resetPolicyNodeStatus,
    Nat.zero_add]
  by_cases hready : (readyOf nodes).length = nodes.length
  · rw [if_pos hready, if_pos hready]
  · rw [if_neg hready, if_neg hready]
    by_cases hissue : 0 < (issuesOf nodes).length
    · rw [if_pos hissue, if_pos hissue]
    · -- some node is not ready and has no issue
      rw [if_neg hissue, if_neg hissue, if_pos (by omega)]

/-- **`processPolicyNodeStatus`, for nodes of known codes.** -/
theorem processPolicyNodeStatus_summary (s previous : WorkloadPolicyStatus) (now : Time)
    (h : ∀ n ∈ nodes, n.code ≠ .unknown) :
    ∃ s', s.processPolicyNodeStatus previous nodes now = .ok s' ∧
      Summary previous nodes now s' :=
  ⟨_, processPolicyNodeStatus_ok s previous now h,
    summary_of_ok (processPolicyNodeStatus_ok s previous now h)⟩

theorem processPolicyNodeStatus_error (s previous : WorkloadPolicyStatus) (now : Time)
    (h : ∃ n ∈ nodes, n.code = .unknown) :
    ∃ e, s.processPolicyNodeStatus previous nodes now = .error e := by
  cases hres : s.processPolicyNodeStatus previous nodes now with
  | error e => exact ⟨e, rfl⟩
  | ok s' =>
    obtain ⟨n, hn, hcode⟩ := h
    exact absurd hcode ((processPolicyNodeStatus_eq_ok_iff.mp hres).1 n hn)

/-! ## Lists that nothing is cut off -/

variable {m : GoMap String PolicyStatus} {name : String}

section Short

variable {previous : WorkloadPolicyStatus} {now : Time} {nodes : List PolicyNodeStatus}

theorem listIssue_of_lt (h : m.entries.length < 19) (n : PolicyNodeStatus) :
    listIssue previous now m n = m.insert n.nodeName (listedAs previous now n) := if_pos h

theorem listTransitioning_of_lt {l : List PolicyNodeStatus} (h : l.length < 19)
    (n : PolicyNodeStatus) :
    listTransitioning previous now l n = l ++ [⟨listedAs previous now n, n.nodeName⟩] := if_pos h

theorem find?_node_iff (hnames : (nodes.map fun n => n.nodeName).Nodup) :
    nodes.find? (fun n => n.nodeName = name) = some n ↔ n ∈ nodes ∧ n.nodeName = name := by
  refine ⟨fun h => ⟨List.mem_of_find?_eq_some h, by simpa using List.find?_some h⟩, ?_⟩
  rintro ⟨hn, hname⟩
  cases hfind : nodes.find? fun n => n.nodeName = name with
  | none => exact absurd hname (by simpa using List.find?_eq_none.mp hfind n hn)
  | some n' =>
    have hname' : n'.nodeName = name := by simpa using List.find?_some hfind
    rw [List.inj_on_of_nodup_map hnames (List.mem_of_find?_eq_some hfind) hn
      (hname'.trans hname.symm)]

theorem lookup_issues (hnames : (nodes.map fun n => n.nodeName).Nodup)
    (hlen : m.entries.length + nodes.length ≤ 19) (name : String) :
    (nodes.foldl (listIssue previous now) m).lookup name =
      match nodes.find? fun n => n.nodeName = name with
      | some n => some (listedAs previous now n)
      | none => m.lookup name := by
  induction nodes generalizing m with
  | nil => rfl
  | cons n nodes ih =>
    rw [List.map_cons, List.nodup_cons] at hnames
    rw [List.length_cons] at hlen
    have hinsert := GoMap.length_insert m n.nodeName (listedAs previous now n)
    rw [List.foldl_cons, listIssue_of_lt (by omega), ih hnames.2 (by omega),
      GoMap.lookup_insert_eq]
    by_cases hname : n.nodeName = name
    · -- no later node has the name
      have hnone : nodes.find? (fun n => n.nodeName = name) = none := by
        refine List.find?_eq_none.mpr fun n' hn' heq => hnames.1 ?_
        rw [hname, ← of_decide_eq_true heq]
        exact List.mem_map_of_mem hn'
      rw [hnone, List.find?_cons_of_pos (by simpa using hname), if_pos hname.symm]
    · rw [List.find?_cons_of_neg (by simpa using hname), if_neg (Ne.symm hname)]

theorem foldl_transitioning {l : List PolicyNodeStatus} (hlen : l.length + nodes.length ≤ 19) :
    nodes.foldl (listTransitioning previous now) l =
      l ++ nodes.map fun n => ⟨listedAs previous now n, n.nodeName⟩ := by
  induction nodes generalizing l with
  | nil => simp
  | cons n nodes ih =>
    rw [List.length_cons] at hlen
    rw [List.foldl_cons, listTransitioning_of_lt (by omega), ih, List.append_assoc]
    · rfl
    · rw [List.length_append, List.length_singleton]
      omega

end Short

/-! ## Lists that are cut -/

section Cut

variable {previous : WorkloadPolicyStatus} {now : Time} {nodes : List PolicyNodeStatus}

theorem length_listIssue_le (previous : WorkloadPolicyStatus) (now : Time)
    (m : GoMap String PolicyStatus) (n : PolicyNodeStatus) :
    m.entries.length ≤ (listIssue previous now m n).entries.length := by
  have hone : ∀ (o : Option PolicyStatus), (o.map fun _ => 1).getD 0 ≤ 1 := fun o => by
    cases o <;> simp
  unfold listIssue
  split
  · have := GoMap.length_insert m n.nodeName (listedAs previous now n)
    have := hone (m.lookup n.nodeName)
    omega
  · split
    · have := GoMap.length_insert m truncationString
        { code := .failed, message := truncationMessage }
      have := hone (m.lookup truncationString)
      omega
    · exact Nat.le_refl _

theorem lookup_listIssue_of_ne (hname : name ≠ n.nodeName) (hmark : name ≠ truncationString) :
    (listIssue previous now m n).lookup name = m.lookup name := by
  unfold listIssue
  split
  · rw [GoMap.lookup_insert_eq, if_neg hname]
  · split
    · rw [GoMap.lookup_insert_eq, if_neg hmark]
    · rfl

theorem lookup_issues_of_notMem (hname : name ∉ nodes.map fun n => n.nodeName)
    (hmark : name ≠ truncationString) (m : GoMap String PolicyStatus) :
    (nodes.foldl (listIssue previous now) m).lookup name = m.lookup name := by
  induction nodes generalizing m with
  | nil => rfl
  | cons n nodes ih =>
    rw [List.map_cons, List.mem_cons, not_or] at hname
    rw [List.foldl_cons, ih hname.2, lookup_listIssue_of_ne hname.1 hmark]

/-- Nineteen nodes fill the map. -/
theorem length_issues (previous : WorkloadPolicyStatus) (now : Time)
    (hnames : (nodes.map fun n => n.nodeName).Nodup) :
    min nodes.length 19 ≤ (nodes.foldl (listIssue previous now) ∅).entries.length ∧
      ((nodes.foldl (listIssue previous now) ∅).entries.length < 19 →
        ∀ name ∉ nodes.map fun n => n.nodeName,
          (nodes.foldl (listIssue previous now) ∅).lookup name = none) := by
  induction nodes using List.reverseRecOn with
  | nil => exact ⟨Nat.le_refl 0, fun _ _ _ => rfl⟩
  | append_singleton nodes n ih =>
    rw [← List.concat_eq_append, List.map_concat, List.nodup_concat] at hnames
    obtain ⟨hapart, hbefore⟩ := hnames
    obtain ⟨hlen, hfresh⟩ := ih hbefore
    rw [List.foldl_concat, List.length_append, List.length_singleton]
    by_cases hroom : (nodes.foldl (listIssue previous now) ∅).entries.length < 19
    · -- nothing was cut off yet, so the name is new to the map
      have hnew := hfresh hroom n.nodeName hapart
      have hinsert := GoMap.length_insert (nodes.foldl (listIssue previous now) ∅) n.nodeName
        (listedAs previous now n)
      rw [hnew, Option.map_none, Option.getD_none] at hinsert
      rw [listIssue_of_lt hroom]
      refine ⟨by omega, fun _ name hname => ?_⟩
      rw [List.map_append, List.mem_append, not_or] at hname
      rw [GoMap.lookup_insert_eq, if_neg (by simpa using hname.2), hfresh hroom name hname.1]
    · have hmono := length_listIssue_le previous now (nodes.foldl (listIssue previous now) ∅) n
      exact ⟨by omega, fun hlt => absurd hlt (by omega)⟩

theorem listTransitioning_cases (previous : WorkloadPolicyStatus) (now : Time)
    (l : List PolicyNodeStatus) (n : PolicyNodeStatus) :
    ∃ t, listTransitioning previous now l n = l ++ t ∧ (l.length < 19 → t.length = 1) ∧
      ∀ m ∈ t, (m.nodeName = n.nodeName ∧ l.length < 19) ∨ m.nodeName = truncationString := by
  unfold listTransitioning
  split
  · next hroom => exact ⟨_, rfl, fun _ => rfl, fun m hm => .inl ⟨by simp_all, hroom⟩⟩
  · next hfull =>
    split
    · exact ⟨_, rfl, fun _ => rfl, fun m hm => .inr (by simp_all)⟩
    · exact ⟨[], (List.append_nil l).symm, fun h => absurd h hfull, fun m hm => by simp at hm⟩

theorem foldl_transitioning_cases (previous : WorkloadPolicyStatus) (now : Time)
    (nodes l : List PolicyNodeStatus) :
    ∃ t, nodes.foldl (listTransitioning previous now) l = l ++ t ∧
      min (l.length + nodes.length) 19 ≤ (l ++ t).length ∧
      ∀ m ∈ t, m.nodeName ∈ nodes.map (fun n => n.nodeName) ∨ m.nodeName = truncationString := by
  induction nodes generalizing l with
  | nil => exact ⟨[], (List.append_nil l).symm, by simp, fun m hm => by simp at hm⟩
  | cons n nodes ih =>
    obtain ⟨t₁, hstep, hone, hfirst⟩ := listTransitioning_cases previous now l n
    obtain ⟨t₂, hrest, hlen, hlater⟩ := ih (l ++ t₁)
    refine ⟨t₁ ++ t₂, ?_, ?_, fun m hm => ?_⟩
    · rw [List.foldl_cons, hstep, hrest, List.append_assoc]
    · simp only [List.length_append, List.length_cons] at hlen ⊢
      omega
    · rw [List.map_cons, List.mem_cons]
      rcases List.mem_append.mp hm with hm | hm
      · exact (hfirst m hm).imp (fun h => .inl h.1) id
      · exact (hlater m hm).imp .inr id

end Cut

end RuntimeEnforcer.Api
