import RuntimeEnforcer.Proof.NodeLists

/-!
# The order of the nodes

The nodes of a policy come in the order in which a Go map of clients is iterated, which is another
one each time. The code sorts the nodes on their way so that the order does not show in the status.
It does not show as long as nothing is cut off; of twenty nodes of one kind the one that comes last
is not listed, and which one that is is up to the order. So the status is independent of the order
exactly for nodes with at most nineteen of each kind (`sameOutcome_perm_iff`).
-/

set_option autoImplicit false

namespace RuntimeEnforcer.Api

open Lib

/-- The same counters, phase and nodes; `NodesWithIssues` is compared as a map. -/
structure SameNodes (s t : WorkloadPolicyStatus) : Prop where
  totalNodes : s.totalNodes = t.totalNodes
  successfulNodes : s.successfulNodes = t.successfulNodes
  transitioningNodes : s.transitioningNodes = t.transitioningNodes
  failedNodes : s.failedNodes = t.failedNodes
  phase : s.phase = t.phase
  nodesTransitioning : s.nodesTransitioning = t.nodesTransitioning
  nodesWithIssues : ∀ name, s.nodesWithIssues.lookup name = t.nodesWithIssues.lookup name

/-- The same nodes, or no status from either. -/
def SameOutcome :
    Except StatusErr WorkloadPolicyStatus → Except StatusErr WorkloadPolicyStatus → Prop
  | .ok s, .ok t => SameNodes s t
  | .error _, .error _ => True
  | .ok _, .error _ => False
  | .error _, .ok _ => False

/-! ## Few nodes -/

variable {s : WorkloadPolicyStatus}

section Few

variable {previous : WorkloadPolicyStatus} {now : Time} {nodes nodes' : List PolicyNodeStatus}

theorem lookup_issues_perm (hperm : nodes'.Perm nodes)
    (hnames : (nodes.map fun n => n.nodeName).Nodup) (hfew : nodes.length ≤ 19) (name : String) :
    (nodes'.foldl (listIssue previous now) ∅).lookup name =
      (nodes.foldl (listIssue previous now) ∅).lookup name := by
  have hnames' := (hperm.map fun n => n.nodeName).nodup_iff.mpr hnames
  have hempty : (∅ : GoMap String PolicyStatus).entries.length = 0 := rfl
  have hfind : nodes'.find? (fun n => n.nodeName = name) =
      nodes.find? fun n => n.nodeName = name := by
    refine Option.ext fun n => ?_
    rw [find?_node_iff hnames', find?_node_iff hnames, hperm.mem_iff]
  rw [lookup_issues hnames' (by rw [hempty, hperm.length_eq]; omega),
    lookup_issues hnames (by rw [hempty]; omega), hfind]

theorem sorted_transitioning_perm (hperm : nodes'.Perm nodes)
    (hnames : (nodes.map fun n => n.nodeName).Nodup) (hfew : nodes.length ≤ 19) :
    (nodes'.foldl (listTransitioning previous now) []).insertionSort
        (fun a b => a.nodeName ≤ b.nodeName) =
      (nodes.foldl (listTransitioning previous now) []).insertionSort
        fun a b => a.nodeName ≤ b.nodeName := by
  let r : PolicyNodeStatus → PolicyNodeStatus → Prop := fun a b => a.nodeName ≤ b.nodeName
  let listed : PolicyNodeStatus → PolicyNodeStatus := fun n => ⟨listedAs previous now n, n.nodeName⟩
  have : Std.Total r := ⟨fun a b => Std.le_total⟩
  have : IsTrans PolicyNodeStatus r := ⟨fun a b c hab hbc => String.le_trans hab hbc⟩
  have hlisted : ((nodes.map listed).map fun n => n.nodeName).Nodup := by
    rw [List.map_map]
    exact hnames
  rw [foldl_transitioning (by rw [hperm.length_eq, List.length_nil]; omega),
    foldl_transitioning (by rw [List.length_nil]; omega)]
  have hsort : ∀ l : List PolicyNodeStatus, (l.insertionSort r).Perm l := List.perm_insertionSort r
  refine List.Perm.eq_of_pairwise (fun a b ha hb hab hba => ?_)
    (List.pairwise_insertionSort r (nodes'.map listed))
    (List.pairwise_insertionSort r (nodes.map listed))
    (((hsort _).trans (hperm.map listed)).trans (hsort _).symm)
  -- two of one name are one
  exact List.inj_on_of_nodup_map hlisted ((hperm.map listed).mem_iff.mp ((hsort _).mem_iff.mp ha))
    ((hsort _).mem_iff.mp hb) (String.le_antisymm hab hba)

theorem Summary.same {s' : WorkloadPolicyStatus} (h : Summary previous nodes now s)
    (h' : Summary previous nodes' now s') (hperm : nodes'.Perm nodes)
    (hnames : (nodes.map fun n => n.nodeName).Nodup) (hissues : (issuesOf nodes).length ≤ 19)
    (htransitioning : (transitioningOf nodes).length ≤ 19) : SameNodes s s' := by
  have hpart : ∀ p : PolicyNodeStatus → Bool, ((nodes.filter p).map fun n => n.nodeName).Nodup :=
    fun p => hnames.sublist (List.filter_sublist.map _)
  have hreadyLen : (readyOf nodes').length = (readyOf nodes).length := (hperm.filter _).length_eq
  have hissueLen : (issuesOf nodes').length = (issuesOf nodes).length := (hperm.filter _).length_eq
  have htransLen : (transitioningOf nodes').length = (transitioningOf nodes).length :=
    (hperm.filter _).length_eq
  exact {
    totalNodes := by rw [h.total, h'.total, hperm.length_eq]
    successfulNodes := by rw [h.successful, h'.successful, hreadyLen]
    transitioningNodes := by rw [h.transitioning, h'.transitioning, htransLen]
    failedNodes := by rw [h.failed, h'.failed, hissueLen]
    phase := by rw [h.phase, h'.phase, hreadyLen, hissueLen, hperm.length_eq]
    nodesTransitioning := by
      rw [h.nodesTransitioning, h'.nodesTransitioning]
      exact (sorted_transitioning_perm (hperm.filter _) (hpart _) htransitioning).symm
    nodesWithIssues := fun name => by
      rw [h.nodesWithIssues, h'.nodesWithIssues]
      exact (lookup_issues_perm (hperm.filter _) (hpart _) hissues name).symm }

end Few

/-! ## Many nodes -/

section Many

variable {kind : PolicyNodeStatus → Bool} {rest : List PolicyNodeStatus} {x : PolicyNodeStatus}

variable {previous : WorkloadPolicyStatus} {now : Time} {nodes : List PolicyNodeStatus}

/-- A node of a kind that has at least twenty, put in front of the others or behind them. -/
structure Crowded (kind : PolicyNodeStatus → Bool) (nodes : List PolicyNodeStatus)
    (x : PolicyNodeStatus) (rest : List PolicyNodeStatus) : Prop where
  front : (x :: rest).Perm nodes
  back : (rest ++ [x]).Perm nodes
  notMarker : x.nodeName ≠ truncationString
  apart : x.nodeName ∉ (rest.filter kind).map fun n => n.nodeName
  names : ((rest.filter kind).map fun n => n.nodeName).Nodup
  many : 19 ≤ (rest.filter kind).length
  filterFront : (x :: rest).filter kind = x :: rest.filter kind
  filterBack : (rest ++ [x]).filter kind = rest.filter kind ++ [x]

theorem exists_notMarker (hnames : (nodes.map fun n => n.nodeName).Nodup)
    (htwo : 2 ≤ nodes.length) : ∃ x ∈ nodes, x.nodeName ≠ truncationString := by
  match nodes, hnames, htwo with
  | a :: b :: nodes, hnames, _ =>
    by_cases ha : a.nodeName = truncationString
    · refine ⟨b, by simp, fun hb => ?_⟩
      rw [List.map_cons, List.map_cons, List.nodup_cons, List.mem_cons, not_or] at hnames
      exact hnames.1.1 (ha.trans hb.symm)
    · exact ⟨a, by simp, ha⟩

theorem exists_crowded (hnames : (nodes.map fun n => n.nodeName).Nodup)
    (hmany : 20 ≤ (nodes.filter kind).length) : ∃ x rest, Crowded kind nodes x rest := by
  obtain ⟨x, hx, hmarker⟩ := exists_notMarker (hnames.sublist (List.filter_sublist.map _))
    (by omega : 2 ≤ (nodes.filter kind).length)
  obtain ⟨hmem, hkind⟩ := List.mem_filter.mp hx
  obtain ⟨before, behind, hsplit⟩ := List.append_of_mem hmem
  have hfront : (x :: (before ++ behind)).Perm nodes := hsplit ▸ List.perm_middle.symm
  have hnodup := (hfront.map fun n => n.nodeName).nodup_iff.mpr hnames
  rw [List.map_cons, List.nodup_cons] at hnodup
  have hfilter := List.filter_cons_of_pos (l := before ++ behind) hkind
  have hlength := (hfront.filter kind).length_eq
  rw [hfilter, List.length_cons] at hlength
  refine ⟨x, before ++ behind, hfront, (List.perm_append_singleton x _).trans hfront, hmarker,
    fun h => hnodup.1 ?_, hnodup.2.sublist (List.filter_sublist.map _), by omega, hfilter, ?_⟩
  · exact (List.filter_sublist.map _).subset h
  · rw [List.filter_append, List.filter_singleton, hkind]
    rfl

theorem lookup_issues_front (h : Crowded kind nodes x rest) :
    (((x :: rest).filter kind).foldl (listIssue previous now) ∅).lookup x.nodeName =
      some (listedAs previous now x) := by
  rw [h.filterFront, List.foldl_cons, lookup_issues_of_notMem h.apart h.notMarker,
    listIssue_of_lt (by decide), GoMap.lookup_insert_eq, if_pos rfl]

theorem lookup_issues_back (h : Crowded kind nodes x rest) :
    (((rest ++ [x]).filter kind).foldl (listIssue previous now) ∅).lookup x.nodeName = none := by
  have hfull := (length_issues previous now h.names).1
  have hmany := h.many
  have habsent : ((rest.filter kind).foldl (listIssue previous now) ∅).lookup x.nodeName = none :=
    lookup_issues_of_notMem h.apart h.notMarker ∅
  rw [h.filterBack, List.foldl_concat, listIssue, if_neg (by rw [maxNodesWithIssues]; omega)]
  split
  · rw [GoMap.lookup_insert_eq, if_neg h.notMarker, habsent]
  · exact habsent

theorem mem_transitioning_front (previous : WorkloadPolicyStatus) (now : Time)
    (h : Crowded kind nodes x rest) :
    ⟨listedAs previous now x, x.nodeName⟩ ∈
      ((x :: rest).filter kind).foldl (listTransitioning previous now) [] := by
  obtain ⟨t, ht, _⟩ := foldl_transitioning_cases previous now (rest.filter kind)
    [⟨listedAs previous now x, x.nodeName⟩]
  rw [h.filterFront, List.foldl_cons, listTransitioning_of_lt (by decide), List.nil_append, ht]
  simp

theorem mem_transitioning_back (h : Crowded kind nodes x rest) :
    ∀ m ∈ ((rest ++ [x]).filter kind).foldl (listTransitioning previous now) [],
      m.nodeName ≠ x.nodeName := by
  obtain ⟨t, ht, hlen, hnamed⟩ := foldl_transitioning_cases previous now (rest.filter kind) []
  obtain ⟨t', ht', _, hlast⟩ := listTransitioning_cases previous now t x
  have hmany := h.many
  rw [List.nil_append] at ht hlen
  rw [List.length_nil] at hlen
  rw [h.filterBack, List.foldl_concat, ht, ht']
  intro m hm heq
  rcases List.mem_append.mp hm with hm | hm
  · rcases hnamed m hm with hrest | hmark
    · exact h.apart (heq ▸ hrest)
    · exact h.notMarker (heq.symm.trans hmark)
  · rcases hlast m hm with ⟨_, hroom⟩ | hmark
    · omega
    · exact h.notMarker (heq.symm.trans hmark)

end Many

/-! ## Every order -/

section Orders

variable {previous : WorkloadPolicyStatus} {now : Time} {nodes : List PolicyNodeStatus}

variable (hnames : (nodes.map fun n => n.nodeName).Nodup)
  (h : ∀ nodes' : List PolicyNodeStatus, nodes'.Perm nodes →
    ∃ s', Summary previous nodes' now s' ∧ SameNodes s s')

include hnames h

theorem few_issues_of_order : (issuesOf nodes).length ≤ 19 := by
  by_contra hmany
  obtain ⟨x, rest, hcrowd⟩ := exists_crowded hnames (by omega : 20 ≤ (issuesOf nodes).length)
  obtain ⟨sfront, hfront, hsameFront⟩ := h _ hcrowd.front
  obtain ⟨sback, hback, hsameBack⟩ := h _ hcrowd.back
  have hlisted := hsameFront.nodesWithIssues x.nodeName
  rw [hsameBack.nodesWithIssues, hfront.nodesWithIssues,
    hback.nodesWithIssues] at hlisted
  -- in front it is listed, behind the others it is not
  exact Option.some_ne_none _
    ((lookup_issues_front hcrowd).symm.trans (hlisted.symm.trans (lookup_issues_back hcrowd)))

theorem few_transitioning_of_order : (transitioningOf nodes).length ≤ 19 := by
  by_contra hmany
  obtain ⟨x, rest, hcrowd⟩ :=
    exists_crowded hnames (by omega : 20 ≤ (transitioningOf nodes).length)
  obtain ⟨sfront, hfront, hsameFront⟩ := h _ hcrowd.front
  obtain ⟨sback, hback, hsameBack⟩ := h _ hcrowd.back
  have hlisted := hsameFront.nodesTransitioning
  rw [hsameBack.nodesTransitioning, hfront.nodesTransitioning,
    hback.nodesTransitioning] at hlisted
  have hmem := (List.perm_insertionSort (fun a b => a.nodeName ≤ b.nodeName) _).mem_iff.mpr
    (mem_transitioning_front previous now hcrowd)
  rw [show (x :: rest).filter _ = transitioningOf (x :: rest) from rfl, ← hlisted,
    (List.perm_insertionSort _ _).mem_iff] at hmem
  exact mem_transitioning_back hcrowd _ hmem rfl

omit hnames h

/-- **The order of the nodes does not show exactly if nothing is cut off.** With a code that is not
known there is no status in any order. -/
theorem sameOutcome_perm_iff (s previous : WorkloadPolicyStatus) (now : Time)
    {nodes : List PolicyNodeStatus} (hnames : (nodes.map fun n => n.nodeName).Nodup) :
    (∀ nodes' : List PolicyNodeStatus, nodes'.Perm nodes →
      SameOutcome (s.processPolicyNodeStatus previous nodes now)
        (s.processPolicyNodeStatus previous nodes' now)) ↔
      (∃ n ∈ nodes, n.code = .unknown) ∨
        (issuesOf nodes).length ≤ 19 ∧ (transitioningOf nodes).length ≤ 19 := by
  by_cases hunknown : ∃ n ∈ nodes, n.code = .unknown
  · refine ⟨fun _ => .inl hunknown, fun _ nodes' hperm => ?_⟩
    obtain ⟨n, hn, hcode⟩ := hunknown
    obtain ⟨e, he⟩ := processPolicyNodeStatus_error s previous now ⟨n, hn, hcode⟩
    obtain ⟨e', he'⟩ := processPolicyNodeStatus_error s previous now
      ⟨n, hperm.mem_iff.mpr hn, hcode⟩
    rw [he, he']
    trivial
  · have hknown : ∀ nodes' : List PolicyNodeStatus, nodes'.Perm nodes →
        ∀ n ∈ nodes', n.code ≠ .unknown := fun nodes' hperm n hn hcode =>
      hunknown ⟨n, hperm.mem_iff.mp hn, hcode⟩
    obtain ⟨t, ht, hsum⟩ :=
      processPolicyNodeStatus_summary s previous now (hknown nodes (.refl nodes))
    rw [ht]
    constructor
    · intro h
      have hsame : ∀ nodes' : List PolicyNodeStatus, nodes'.Perm nodes →
          ∃ s', Summary previous nodes' now s' ∧ SameNodes t s' := by
        intro nodes' hperm
        obtain ⟨t', ht', hsum'⟩ :=
          processPolicyNodeStatus_summary s previous now (hknown nodes' hperm)
        have hboth := h nodes' hperm
        rw [ht'] at hboth
        exact ⟨t', hsum', hboth⟩
      exact .inr ⟨few_issues_of_order hnames hsame, few_transitioning_of_order hnames hsame⟩
    · rintro (hcode | ⟨hissues, htransitioning⟩) nodes' hperm
      · exact absurd hcode hunknown
      · obtain ⟨t', ht', hsum'⟩ :=
          processPolicyNodeStatus_summary s previous now (hknown nodes' hperm)
        rw [ht']
        exact hsum.same hsum' hperm hnames hissues htransitioning

end Orders

namespace Sample

def crowd : List PolicyNodeStatus :=
  (List.range 20).map fun i =>
    { code := .failed, nodeName := String.singleton (Char.ofNat (97 + i)) }

/-- **Of twenty failed nodes the last is not listed**, and in the reverse order it is. -/
theorem crowd_order_shows :
    (crowd.map fun n => n.nodeName).Nodup ∧ crowd.reverse.Perm crowd ∧
      ¬ SameOutcome (({} : WorkloadPolicyStatus).processPolicyNodeStatus {} crowd Time.zero)
        (({} : WorkloadPolicyStatus).processPolicyNodeStatus {} crowd.reverse Time.zero) := by
  have hknown : ∀ n ∈ crowd, n.code ≠ .unknown := by decide +kernel
  have hback : ((issuesOf crowd).foldl (listIssue {} Time.zero) ∅).lookup "t" = none := by
    decide +kernel
  have hfront : ((issuesOf crowd.reverse).foldl (listIssue {} Time.zero) ∅).lookup "t" =
      some { code := .failed, since := Time.zero } := by
    decide +kernel
  refine ⟨by decide +kernel, List.reverse_perm crowd, fun hsame => ?_⟩
  obtain ⟨s, hs, hsum⟩ := processPolicyNodeStatus_summary {} {} Time.zero hknown
  obtain ⟨s', hs', hsum'⟩ := processPolicyNodeStatus_summary {} {} Time.zero
    fun n hn => hknown n (List.mem_reverse.mp hn)
  rw [hs, hs'] at hsame
  have hlisted := SameNodes.nodesWithIssues hsame "t"
  rw [hsum.nodesWithIssues, hsum'.nodesWithIssues, hback, hfront] at hlisted
  exact Option.some_ne_none _ hlisted.symm

def three : List PolicyNodeStatus :=
  [⟨{ code := .failed }, "a"⟩, ⟨{ code := .transitioning }, "b"⟩, ⟨{ code := .missing }, "c"⟩]

/-- They may come in any order. -/
theorem sameOutcome_perm_iff_three :
    (three.map fun n => n.nodeName).Nodup ∧
      ∀ nodes' : List PolicyNodeStatus, nodes'.Perm three →
        SameOutcome (({} : WorkloadPolicyStatus).processPolicyNodeStatus {} three Time.zero)
          (({} : WorkloadPolicyStatus).processPolicyNodeStatus {} nodes' Time.zero) := by
  have hnames : (three.map fun n => n.nodeName).Nodup := by decide
  exact ⟨hnames, (sameOutcome_perm_iff {} {} Time.zero hnames).mpr (.inr (by decide))⟩

end Sample

end RuntimeEnforcer.Api
