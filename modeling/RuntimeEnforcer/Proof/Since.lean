import RuntimeEnforcer.Proof.NodeLists
import RuntimeEnforcer.Proof.StatusInvariant

/-!
# Since when a node is in its state

The status is emptied and filled again by every recomputation; the time stamps come through because
the one before is asked for each node. What the stamps then say of the whole history is that they
mark the start of the node's current state (`since_of_history`): the first of the calls at the
history's end that all report the node with the code it is listed with. This is about histories in
which the lists are never cut: a node that was cut off is asked for in vain.
-/

set_option autoImplicit false

namespace RuntimeEnforcer.Api

open Lib

/-- The node is listed, with this status. -/
def WorkloadPolicyStatus.Lists (s : WorkloadPolicyStatus) (nodeName : String)
    (ps : PolicyStatus) : Prop :=
  s.nodesWithIssues.lookup nodeName = some ps ∨ ⟨ps, nodeName⟩ ∈ s.nodesTransitioning

/-- A code that is listed by name. -/
def PolicyCode.isListed (code : PolicyCode) : Bool := code.isIssue || code = .transitioning

theorem nodeStatus_lists (s : WorkloadPolicyStatus) (name : String) :
    s.Lists name (s.nodeStatus name) ∨ s.nodeStatus name = {} ∧ ∀ ps, ¬ s.Lists name ps := by
  unfold WorkloadPolicyStatus.nodeStatus WorkloadPolicyStatus.Lists
  cases hissue : s.nodesWithIssues.lookup name with
  | some ps => exact .inl (.inl rfl)
  | none =>
    cases hfind : s.nodesTransitioning.find? fun ns => ns.nodeName = name with
    | some ns =>
      have hname : ns.nodeName = name := by simpa using List.find?_some hfind
      exact .inl (.inr (hname ▸ List.mem_of_find?_eq_some hfind))
    | none =>
      refine .inr ⟨rfl, fun ps hlisted => ?_⟩
      rcases hlisted with hsome | hmem
      · exact Option.some_ne_none _ hsome.symm
      · have hother := List.find?_eq_none.mp hfind _ hmem
        simp at hother

/-! ## One call -/

variable {wp' wp : WorkloadPolicy} {c : RecomputeCall}

/-- The call's nodes have distinct names and leave the lists uncut. -/
structure RecomputeCall.Uncut (c : RecomputeCall) : Prop where
  names : (c.nodes.map fun n => n.nodeName).Nodup
  issues : (issuesOf c.nodes).length ≤ 19
  transitioning : (transitioningOf c.nodes).length ≤ 19

def RecomputeCall.Reports (c : RecomputeCall) (nodeName : String) (code : PolicyCode) : Prop :=
  ∃ n ∈ c.nodes, n.nodeName = nodeName ∧ n.code = code

instance (c : RecomputeCall) (nodeName : String) (code : PolicyCode) :
    Decidable (c.Reports nodeName code) :=
  inferInstanceAs (Decidable (∃ n ∈ c.nodes, n.nodeName = nodeName ∧ n.code = code))

namespace Summary

variable {previous s : WorkloadPolicyStatus} {nodes : List PolicyNodeStatus} {now : Time}

theorem lookup_nodesWithIssues_iff (h : Summary previous nodes now s)
    (hnames : (nodes.map fun n => n.nodeName).Nodup) (hissues : (issuesOf nodes).length ≤ 19)
    (name : String) (ps : PolicyStatus) :
    s.nodesWithIssues.lookup name = some ps ↔
      ∃ n ∈ nodes, n.code.isIssue ∧ n.nodeName = name ∧ ps = listedAs previous now n := by
  have hpart : ((issuesOf nodes).map fun n => n.nodeName).Nodup :=
    hnames.sublist (List.filter_sublist.map _)
  rw [h.nodesWithIssues, lookup_issues hpart (by show 0 + _ ≤ 19; omega)]
  cases hfind : (issuesOf nodes).find? fun n => n.nodeName = name with
  | none =>
    have hnone := List.find?_eq_none.mp hfind
    refine ⟨fun habs => by simp at habs, ?_⟩
    rintro ⟨n, hn, hcode, hname, _⟩
    exact absurd hname (by simpa using hnone n (List.mem_filter.mpr ⟨hn, hcode⟩))
  | some m =>
    obtain ⟨hm, hmname⟩ := (find?_node_iff hpart).mp hfind
    obtain ⟨hmem, hmcode⟩ := List.mem_filter.mp hm
    refine ⟨fun heq => ⟨m, hmem, hmcode, hmname, (Option.some.inj heq).symm⟩, ?_⟩
    rintro ⟨n, hn, _, hname, rfl⟩
    rw [List.inj_on_of_nodup_map hnames hmem hn (hmname.trans hname.symm)]

theorem mem_nodesTransitioning_iff (h : Summary previous nodes now s)
    (htransitioning : (transitioningOf nodes).length ≤ 19) (name : String) (ps : PolicyStatus) :
    ⟨ps, name⟩ ∈ s.nodesTransitioning ↔
      ∃ n ∈ nodes, n.code = .transitioning ∧ n.nodeName = name ∧
        ps = listedAs previous now n := by
  rw [h.nodesTransitioning, (List.perm_insertionSort _ _).mem_iff,
    foldl_transitioning (by rw [List.length_nil]; omega), List.nil_append, List.mem_map]
  constructor
  · rintro ⟨n, hn, heq⟩
    obtain ⟨hmem, hcode⟩ := List.mem_filter.mp hn
    cases heq
    exact ⟨n, hmem, by simpa using hcode, rfl, rfl⟩
  · rintro ⟨n, hn, hcode, rfl, rfl⟩
    exact ⟨n, List.mem_filter.mpr ⟨hn, by simpa using hcode⟩, rfl⟩

theorem lists_iff (h : Summary previous nodes now s)
    (hnames : (nodes.map fun n => n.nodeName).Nodup) (hissues : (issuesOf nodes).length ≤ 19)
    (htransitioning : (transitioningOf nodes).length ≤ 19) (name : String) (ps : PolicyStatus) :
    s.Lists name ps ↔ ∃ n ∈ nodes, n.nodeName = name ∧ n.code.isListed ∧
      ps = listedAs previous now n := by
  rw [WorkloadPolicyStatus.Lists, h.lookup_nodesWithIssues_iff hnames hissues,
    h.mem_nodesTransitioning_iff htransitioning]
  constructor
  · rintro (⟨n, hn, hcode, hname, hps⟩ | ⟨n, hn, hcode, hname, hps⟩)
    · exact ⟨n, hn, hname, by simp [PolicyCode.isListed, hcode], hps⟩
    · exact ⟨n, hn, hname, by simp [PolicyCode.isListed, hcode], hps⟩
  · rintro ⟨n, hn, hname, hcode, hps⟩
    rcases Bool.or_eq_true_iff.mp hcode with hcode | hcode
    · exact .inl ⟨n, hn, hcode, hname, hps⟩
    · exact .inr ⟨n, hn, by simpa using hcode, hname, hps⟩

end Summary

theorem recomputeStatus_lists {order : Order String String} {nodes : List PolicyNodeStatus}
    {scraped : List ViolationRecord} {now : Time} {acknowledged : List AcknowledgedViolationRecord}
    (h : wp.recomputeStatus order nodes scraped now = .ok (wp', acknowledged)) :
    ∃ s, Summary wp.status nodes now s ∧ wp'.status.nodesWithIssues = s.nodesWithIssues ∧
      wp'.status.nodesTransitioning = s.nodesTransitioning := by
  unfold WorkloadPolicy.recomputeStatus at h
  cases hnodes : wp.status.processPolicyNodeStatus wp.status nodes now with
  | error e => simp [hnodes] at h
  | ok s =>
    simp only [hnodes, acknowledgeViolationsFromAnnotations_eq, Except.ok.injEq,
      Prod.mk.injEq] at h
    obtain ⟨rfl, _⟩ := h
    exact ⟨s, summary_of_ok hnodes, rfl, rfl⟩

/-- **The lists after a call**, when it leaves them uncut. -/
theorem RecomputeCall.apply_lists_iff (hc : c.Uncut) (h : RecomputeCall.apply wp c = .ok wp')
    (name : String) (ps : PolicyStatus) :
    wp'.status.Lists name ps ↔ ∃ n ∈ c.nodes, n.nodeName = name ∧ n.code.isListed ∧
      ps = listedAs wp.status c.now n := by
  rw [RecomputeCall.apply] at h
  cases hone : (c.edited wp).recomputeStatus c.order c.nodes c.scrapedViolations c.now with
  | error e =>
    rw [hone] at h
    cases h
  | ok res =>
    rw [hone] at h
    cases h
    obtain ⟨s, hsum, hissues, htransitioning⟩ := recomputeStatus_lists hone
    rw [WorkloadPolicyStatus.Lists, hissues, htransitioning]
    exact hsum.lists_iff hc.names hc.issues hc.transitioning name ps

/-! ## The history -/

variable {calls : List RecomputeCall}

/-- The longest run of calls at the end that report the node with the code. -/
def stateRun (calls : List RecomputeCall) (nodeName : String) (code : PolicyCode) :
    List RecomputeCall :=
  calls.rtakeWhile fun c => c.Reports nodeName code

theorem stateRun_push {name : String} {code : PolicyCode} (h : c.Reports name code) :
    stateRun (calls ++ [c]) name code = stateRun calls name code ++ [c] :=
  List.rtakeWhile_concat_pos _ _ c (decide_eq_true h)

theorem reports_of_stateRun_push {name : String} {code : PolicyCode}
    (h : stateRun (calls ++ [c]) name code ≠ []) : c.Reports name code := by
  by_contra hnot
  exact h (List.rtakeWhile_concat_neg _ _ c (by simpa using hnot))

/-- The lists after the calls: who is listed, once each and with which time. -/
structure Dated (calls : List RecomputeCall) (s : WorkloadPolicyStatus) : Prop where
  since : ∀ name ps, s.Lists name ps →
    (stateRun calls name ps.code).head?.map (fun c => c.now) = some ps.since
  listed : ∀ name code, code.isListed → stateRun calls name code ≠ [] →
    ∃ ps, s.Lists name ps ∧ ps.code = code
  once : ∀ name ps ps', s.Lists name ps → s.Lists name ps' → ps = ps'

theorem Dated.empty : Dated [] {} := by
  have hnobody : ∀ name ps, ¬ ({} : WorkloadPolicyStatus).Lists name ps := by
    rintro name ps (h | h) <;> cases h
  exact ⟨fun name ps h => absurd h (hnobody name ps), fun name code _ h => absurd rfl h,
    fun name ps _ h => absurd h (hnobody name ps)⟩

theorem Dated.transitionTime_eq {s : WorkloadPolicyStatus} (h : Dated calls s)
    (hnonzero : ∀ c ∈ calls, c.now ≠ Time.zero) (n : PolicyNodeStatus) (hcode : n.code.isListed)
    (now : Time) :
    transitionTime (s.nodeStatus n.nodeName) n.toPolicyStatus now =
      ((stateRun calls n.nodeName n.code).head?.map fun c => c.now).getD now := by
  rw [transitionTime]
  cases hrun : stateRun calls n.nodeName n.code with
  | nil =>
    -- the node was not listed with this code
    refine if_neg fun hsame => ?_
    rcases nodeStatus_lists s n.nodeName with hlists | ⟨hnew, _⟩
    · have hsince := h.since n.nodeName _ hlists
      rw [hsame.1, hrun] at hsince
      cases hsince
    · rw [hnew] at hsame
      rw [← hsame.1] at hcode
      cases hcode
  | cons first rest =>
    obtain ⟨ps, hlists, hps⟩ := h.listed n.nodeName n.code hcode (by rw [hrun]; simp)
    have hnode : s.nodeStatus n.nodeName = ps := by
      rcases nodeStatus_lists s n.nodeName with hnode | ⟨_, hnobody⟩
      · exact h.once n.nodeName _ _ hnode hlists
      · exact absurd hlists (hnobody ps)
    have hsince := h.since n.nodeName ps hlists
    rw [hps, hrun] at hsince
    have hfirst : first.now = ps.since := Option.some.inj hsince
    have hmem : first ∈ calls := (List.rtakeWhile_suffix _ _).subset
      (show first ∈ stateRun calls n.nodeName n.code by rw [hrun]; exact List.mem_cons_self)
    rw [hnode, if_pos ⟨hps, hfirst ▸ hnonzero first hmem⟩]
    exact hfirst.symm

/-- **One more call.** -/
theorem Dated.call (h : Dated calls wp.status) (hnonzero : ∀ c ∈ calls, c.now ≠ Time.zero)
    (hc : c.Uncut) (hcall : RecomputeCall.apply wp c = .ok wp') :
    Dated (calls ++ [c]) wp'.status where
  since := by
    intro name ps hlists
    obtain ⟨n, hn, rfl, hcode, rfl⟩ := (RecomputeCall.apply_lists_iff hc hcall name ps).mp hlists
    show (stateRun (calls ++ [c]) n.nodeName n.code).head?.map _ =
      some (transitionTime (wp.status.nodeStatus n.nodeName) n.toPolicyStatus c.now)
    rw [stateRun_push ⟨n, hn, rfl, rfl⟩, h.transitionTime_eq hnonzero n hcode]
    cases stateRun calls n.nodeName n.code with
    | nil => rfl
    | cons first rest => rfl
  listed := by
    intro name code hcode hrun
    obtain ⟨n, hn, rfl, rfl⟩ := reports_of_stateRun_push hrun
    exact ⟨listedAs wp.status c.now n,
      (RecomputeCall.apply_lists_iff hc hcall _ _).mpr ⟨n, hn, rfl, hcode, rfl⟩, rfl⟩
  once := by
    intro name ps ps' hps hps'
    obtain ⟨n, hn, hname, _, rfl⟩ := (RecomputeCall.apply_lists_iff hc hcall name ps).mp hps
    obtain ⟨n', hn', hname', _, rfl⟩ := (RecomputeCall.apply_lists_iff hc hcall name ps').mp hps'
    rw [List.inj_on_of_nodup_map hc.names hn hn' (hname.trans hname'.symm)]

theorem dated_of_history (hempty : wp.status = {}) (hnonzero : ∀ c ∈ calls, c.now ≠ Time.zero)
    (huncut : ∀ c ∈ calls, c.Uncut) (hcalls : calls.foldlM RecomputeCall.apply wp = .ok wp') :
    Dated calls wp'.status := by
  induction calls using List.reverseRecOn generalizing wp' with
  | nil =>
    cases hcalls
    exact hempty ▸ Dated.empty
  | append_singleton calls c ih =>
    obtain ⟨wp₁, hbefore, hlast⟩ := foldlM_push_eq_ok.mp hcalls
    have hpast : ∀ c' ∈ calls, c' ∈ calls ++ [c] := fun c' hc' => List.mem_append_left _ hc'
    have hdated := ih (fun c' hc' => hnonzero c' (hpast c' hc'))
      (fun c' hc' => huncut c' (hpast c' hc')) hbefore
    exact hdated.call (fun c' hc' => hnonzero c' (hpast c' hc'))
      (huncut c (List.mem_append_right _ (List.mem_singleton_self c))) hlast

/-- **`Since` marks the start of the node's current state.** Of a policy that starts with an empty
status, after every sequence of successful recomputations that leave the lists uncut. -/
theorem since_of_history {wp wp' : WorkloadPolicy} (hempty : wp.status = {})
    {calls : List RecomputeCall} (hnonzero : ∀ c ∈ calls, c.now ≠ Time.zero)
    (huncut : ∀ c ∈ calls, c.Uncut) (hcalls : calls.foldlM RecomputeCall.apply wp = .ok wp')
    {name : String} {ps : PolicyStatus} (hlists : wp'.status.Lists name ps) :
    ∃ first, (stateRun calls name ps.code).head? = some first ∧ ps.since = first.now := by
  have hsince := (dated_of_history hempty hnonzero huncut hcalls).since name ps hlists
  obtain ⟨first, hfirst, hnow⟩ := Option.map_eq_some_iff.mp hsince
  exact ⟨first, hfirst, hnow.symm⟩

namespace Sample

def oneNode (code : PolicyCode) (message : String) (second : Int) : RecomputeCall where
  mode := .protect
  rulesByContainer := sealed.rulesByContainer
  generation := 1
  annotations := ∅
  order := .stored
  nodes := [⟨{ code, message }, "node-1"⟩]
  scrapedViolations := []
  now := second * 1000000000

/-- The node fails, recovers, fails again and then says why. -/
def relapse : List RecomputeCall :=
  [oneNode .failed "" 1, oneNode .ready "" 2, oneNode .failed "" 3, oneNode .failed "disk full" 4]

theorem since_of_history_relapse : ∃ wp', relapse.foldlM RecomputeCall.apply sealed = .ok wp' ∧
    wp'.status.Lists "node-1" ⟨.failed, "disk full", 3000000000⟩ ∧
    ∃ first, (stateRun relapse "node-1" .failed).head? = some first ∧
      (3000000000 : Time) = first.now := by
  have hnonzero : ∀ c ∈ relapse, c.now ≠ Time.zero := by decide
  have huncut : ∀ c ∈ relapse, c.Uncut := by
    have hone : ∀ code message second, (oneNode code message second).Uncut := by
      intro code message second
      have hlen : (oneNode code message second).nodes.length ≤ 19 := by simp [oneNode]
      exact ⟨List.nodup_singleton _, (List.length_filter_le _ _).trans hlen,
        (List.length_filter_le _ _).trans hlen⟩
    simp [relapse, hone]
  obtain ⟨wp', hcalls, hlook⟩ : ∃ wp', relapse.foldlM RecomputeCall.apply sealed = .ok wp' ∧
      wp'.status.nodesWithIssues.lookup "node-1" = some ⟨.failed, "disk full", 3000000000⟩ :=
    ⟨_, rfl, by decide +kernel⟩
  exact ⟨wp', hcalls, .inl hlook, since_of_history rfl hnonzero huncut hcalls (.inl hlook)⟩

end Sample

end RuntimeEnforcer.Api
