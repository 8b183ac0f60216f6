import RuntimeEnforcer.Debugger.Validate
import RuntimeEnforcer.Lib.OuterJoin

/-!
# The cache validation reports every discrepancy

`compareCaches` runs through two sorted lists with two indices. What it reports is the full outer
join of the lists by pod id, whatever the order the lists came in (`joinPods`): the loop's invariant
is that of the pods before the two indices, and that every pod before one index comes before every
pod from the other index on, so that no partner is overlooked.
-/

set_option autoImplicit false

namespace RuntimeEnforcer.Debugger

open Lib

/-! ## Two pods -/

/-- What the validation asks of a pod that both sides have: every container that is not terminated
is cached, and every cached container is known to the cluster. -/
structure Agrees (clusterPod : ClusterPodView) (cachePod : AgentPodView) : Prop where
  ns : clusterPod.ns = cachePod.ns
  name : clusterPod.name = cachePod.name
  cached : ∀ id c, clusterPod.containers.lookup id = some c → c.terminated = false →
    (cachePod.containers.lookup id).isSome = true
  known : ∀ id name, cachePod.containers.lookup id = some name →
    (clusterPod.containers.lookup id).isSome = true
  names : ∀ id c name, clusterPod.containers.lookup id = some c →
    cachePod.containers.lookup id = some name → c.name = name

theorem comparePods_perm (o o' : Orders) (n n' : Nat) (c : ClusterPodView) (a : AgentPodView) :
    (comparePods o n c a).Perm (comparePods o' n' c a) := by
  have hcluster : (o.cluster.range n c.containers).Perm (o'.cluster.range n' c.containers) :=
    (o.cluster.perm n _).trans (o'.cluster.perm n' _).symm
  have hagent : (o.agent.range n a.containers).Perm (o'.agent.range n' a.containers) :=
    (o.agent.perm n _).trans (o'.agent.perm n' _).symm
  unfold comparePods
  exact (((hcluster.flatMap_right _).append_left _).append (hagent.flatMap_right _)).map _

theorem compareClusterContainer_eq_nil {a : AgentPodView} {id : String}
    {c : ClusterContainerMeta} :
    compareClusterContainer a id c = [] ↔
      (c.terminated = false → (a.containers.lookup id).isSome = true) ∧
        ∀ name, a.containers.lookup id = some name → c.name = name := by
  unfold compareClusterContainer
  cases a.containers.lookup id with
  | none =>
    cases hterm : c.terminated with
    | true => simp
    | false => simp
  | some cacheName => simp

theorem compareAgentContainer_eq_nil {c : ClusterPodView} {id name : String} :
    compareAgentContainer c id name = [] ↔ (c.containers.lookup id).isSome = true := by
  unfold compareAgentContainer
  split
  · next h => simp [h]
  · next h => simp [h]

theorem comparePods_eq_nil_iff {o : Orders} {n : Nat} {c : ClusterPodView} {a : AgentPodView} :
    comparePods o n c a = [] ↔ Agrees c a := by
  have hfield : ∀ (x y : String) (text : String), (if x ≠ y then [text] else []) = [] ↔ x = y := by
    intro x y text
    split
    · next hne => simp [hne]
    · next heq => simpa using heq
  simp only [comparePods, List.map_eq_nil_iff, List.append_eq_nil_iff, hfield,
    List.flatMap_eq_nil_iff, compareClusterContainer_eq_nil, compareAgentContainer_eq_nil]
  constructor
  · rintro ⟨⟨⟨hns, hname⟩, hcluster⟩, hagent⟩
    refine ⟨hns, hname, fun id m hm => ?_, fun id name hid => ?_, fun id m name hm => ?_⟩
    · exact (hcluster ⟨id, m⟩ ((o.cluster.mem_range n).mpr hm)).1
    · exact hagent ⟨id, name⟩ ((o.agent.mem_range n).mpr hid)
    · exact (hcluster ⟨id, m⟩ ((o.cluster.mem_range n).mpr hm)).2 name
  · intro h
    refine ⟨⟨⟨h.ns, h.name⟩, fun e he => ?_⟩, fun e he => ?_⟩
    · have hm := (o.cluster.mem_range n).mp he
      exact ⟨h.cached e.1 e.2 hm, fun name => h.names e.1 e.2 name hm⟩
    · exact h.known e.1 e.2 ((o.agent.mem_range n).mp he)

/-! ## Two lists -/

/-- The discrepancies of two lists of pods. -/
def joinPods (o : Orders) (n : Nat) (cluster : List ClusterPodView) (agent : List AgentPodView) :
    List String :=
  outerJoin ClusterPodView.sortKey AgentPodView.sortKey missingPodFromAgentCache
    unexpectedPodInAgentCache (comparePods o n) cluster agent

section Loop

variable {o : Orders} {n : Nat} {cluster : List ClusterPodView} {agent : List AgentPodView}
  {st : Comparing} {c : ClusterPodView} {a : AgentPodView}

/-- What the loop has done when it stands at two indices. -/
structure Compared (o : Orders) (n : Nat) (cluster : List ClusterPodView)
    (agent : List AgentPodView) (st : Comparing) : Prop where
  differences : st.differences.Perm
    (joinPods o n (cluster.take st.clusterIdx) (agent.take st.agentIdx))
  clusterFirst : ∀ c ∈ cluster.take st.clusterIdx, ∀ a ∈ agent.drop st.agentIdx,
    c.sortKey < a.sortKey
  agentFirst : ∀ a ∈ agent.take st.agentIdx, ∀ c ∈ cluster.drop st.clusterIdx,
    a.sortKey < c.sortKey

theorem compared_start : Compared o n cluster agent {} :=
  ⟨.refl _, fun c hc => by simp at hc, fun a ha => by simp at ha⟩

theorem take_drop_of_getElem? {α : Type} {l : List α} {i : Nat} {x : α} (h : l[i]? = some x) :
    l.take (i + 1) = l.take i ++ [x] ∧ l.drop i = x :: l.drop (i + 1) := by
  obtain ⟨hi, rfl⟩ := List.getElem?_eq_some_iff.mp h
  exact ⟨(List.take_append_getElem hi).symm, List.drop_eq_getElem_cons hi⟩

theorem mem_take_succ {α : Type} {l : List α} {i : Nat} {x y : α} (h : l[i]? = some x) :
    y ∈ l.take (i + 1) ↔ y ∈ l.take i ∨ y = x := by
  rw [(take_drop_of_getElem? h).1, List.mem_append, List.mem_singleton]

theorem mem_drop_iff {α : Type} {l : List α} {i : Nat} {x y : α} (h : l[i]? = some x) :
    y ∈ l.drop i ↔ y = x ∨ y ∈ l.drop (i + 1) := by
  rw [(take_drop_of_getElem? h).2, List.mem_cons]

theorem lt_of_mem_drop {α : Type} {key : α → String} {l : List α} {i : Nat} {x : α}
    (hsorted : l.Pairwise fun a b => key a < key b) (h : l[i]? = some x) :
    ∀ y ∈ l.drop (i + 1), key x < key y := by
  have hdrop := hsorted.sublist (List.drop_sublist i l)
  rw [(take_drop_of_getElem? h).2, List.pairwise_cons] at hdrop
  exact hdrop.1

variable (h : Compared o n cluster agent st) (hc : cluster[st.clusterIdx]? = some c)
  (ha : agent[st.agentIdx]? = some a)

include h hc ha

theorem Compared.missing (hagent : agent.Pairwise fun a b => a.sortKey < b.sortKey)
    (hlt : c.sortKey < a.sortKey) :
    Compared o n cluster agent
      { st with
        differences := st.differences ++ [missingPodFromAgentCache c]
        clusterIdx := st.clusterIdx + 1 } := by
  have hcmem : c ∈ cluster.drop st.clusterIdx := (mem_drop_iff hc).mpr (.inl rfl)
  refine ⟨?_, fun c' hc' a' ha' => ?_, fun a' ha' c' hc' => ?_⟩
  · have hnew : ∀ z ∈ [c], ∀ y ∈ agent.take st.agentIdx, y.sortKey ≠ z.sortKey := by
      intro z hz y hy
      rw [List.mem_singleton.mp hz]
      exact (h.agentFirst y hy c hcmem).ne
    dsimp only
    rw [(take_drop_of_getElem? hc).1]
    exact (h.differences.append_right _).trans (outerJoin_append_left hnew).symm
  · rcases (mem_take_succ hc).mp hc' with hold | rfl
    · exact h.clusterFirst c' hold a' ha'
    · rcases (mem_drop_iff ha).mp ha' with rfl | hlater
      · exact hlt
      · exact hlt.trans (lt_of_mem_drop hagent ha a' hlater)
  · exact h.agentFirst a' ha' c' ((mem_drop_iff hc).mpr (.inr hc'))

variable (hcluster : cluster.Pairwise fun a b => a.sortKey < b.sortKey)

include hcluster

theorem Compared.unexpected (hlt : a.sortKey < c.sortKey) :
    Compared o n cluster agent
      { st with
        differences := st.differences ++ [unexpectedPodInAgentCache a]
        agentIdx := st.agentIdx + 1 } := by
  have hamem : a ∈ agent.drop st.agentIdx := (mem_drop_iff ha).mpr (.inl rfl)
  refine ⟨?_, fun c' hc' a' ha' => ?_, fun a' ha' c' hc' => ?_⟩
  · have hnew : ∀ x ∈ cluster.take st.clusterIdx, ∀ w ∈ [a], w.sortKey ≠ x.sortKey := by
      intro x hx w hw
      rw [List.mem_singleton.mp hw]
      exact (h.clusterFirst x hx a hamem).ne'
    dsimp only
    rw [(take_drop_of_getElem? ha).1]
    exact (h.differences.append_right _).trans (outerJoin_append_right hnew).symm
  · exact h.clusterFirst c' hc' a' ((mem_drop_iff ha).mpr (.inr ha'))
  · rcases (mem_take_succ ha).mp ha' with hold | rfl
    · exact h.agentFirst a' hold c' hc'
    · rcases (mem_drop_iff hc).mp hc' with rfl | hlater
      · exact hlt
      · exact hlt.trans (lt_of_mem_drop hcluster hc c' hlater)

variable (hagent : agent.Pairwise fun a b => a.sortKey < b.sortKey)

include hagent

theorem Compared.common (hkey : a.sortKey = c.sortKey) :
    Compared o n cluster agent
      { differences := st.differences ++ comparePods o st.clusterIdx c a
        clusterIdx := st.clusterIdx + 1
        agentIdx := st.agentIdx + 1 } := by
  refine ⟨?_, fun c' hc' a' ha' => ?_, fun a' ha' c' hc' => ?_⟩
  · have hx : ∀ x ∈ cluster.take st.clusterIdx, a.sortKey ≠ x.sortKey := fun x hx =>
      (h.clusterFirst x hx a ((mem_drop_iff ha).mpr (.inl rfl))).ne'
    have hy : ∀ y ∈ agent.take st.agentIdx, y.sortKey ≠ c.sortKey := fun y hy =>
      (h.agentFirst y hy c ((mem_drop_iff hc).mpr (.inl rfl))).ne
    dsimp only
    rw [(take_drop_of_getElem? hc).1, (take_drop_of_getElem? ha).1, joinPods,
      outerJoin_push_both hkey hx hy]
    exact h.differences.append (comparePods_perm o o st.clusterIdx n c a)
  · rcases (mem_take_succ hc).mp hc' with hold | rfl
    · exact h.clusterFirst c' hold a' ((mem_drop_iff ha).mpr (.inr ha'))
    · rw [← hkey]
      exact lt_of_mem_drop hagent ha a' ha'
  · rcases (mem_take_succ ha).mp ha' with hold | rfl
    · exact h.agentFirst a' hold c' ((mem_drop_iff hc).mpr (.inr hc'))
    · rw [hkey]
      exact lt_of_mem_drop hcluster hc c' hc'

theorem Compared.compare : Compared o n cluster agent (st.compare o c a) := by
  unfold Comparing.compare
  split
  · next hlt => exact h.missing hc ha hagent hlt
  · next hnot =>
    split
    · next hlt => exact h.unexpected hc ha hcluster hlt
    · next hnot' =>
      have hkey : a.sortKey = c.sortKey := le_antisymm (not_lt.mp hnot) (not_lt.mp hnot')
      exact h.common hc ha hcluster hagent hkey

omit h hc ha hcluster hagent

theorem compare_idx (o : Orders) (st : Comparing) (c : ClusterPodView) (a : AgentPodView) :
    st.clusterIdx + st.agentIdx <
      (st.compare o c a).clusterIdx + (st.compare o c a).agentIdx := by
  unfold Comparing.compare
  split
  · dsimp only; omega
  · split
    · dsimp only; omega
    · dsimp only; omega

/-- **The loop**, and that it comes to the end of one of the lists. -/
theorem compareLoop_compared (hcluster : cluster.Pairwise fun a b => a.sortKey < b.sortKey)
    (hagent : agent.Pairwise fun a b => a.sortKey < b.sortKey) (fuel : Nat)
    (h : Compared o n cluster agent st)
    (hfuel : cluster.length + agent.length ≤ fuel + st.clusterIdx + st.agentIdx) :
    Compared o n cluster agent (compareLoop o cluster agent fuel st) ∧
      (cluster.length ≤ (compareLoop o cluster agent fuel st).clusterIdx ∨
        agent.length ≤ (compareLoop o cluster agent fuel st).agentIdx) := by
  induction fuel generalizing st with
  | zero =>
    rw [compareLoop]
    exact ⟨h, by omega⟩
  | succ fuel ih =>
    rw [compareLoop]
    split
    · next c a hc ha =>
      have hidx := compare_idx o st c a
      exact ih (h.compare hc ha hcluster hagent) (by omega)
    · next hend =>
      refine ⟨h, ?_⟩
      by_contra hnot
      rw [not_or, not_le, not_le] at hnot
      exact hend _ _ (List.getElem?_eq_getElem hnot.1) (List.getElem?_eq_getElem hnot.2)

/-- **What is reported of two sorted lists.** -/
theorem compareCaches_perm (n : Nat) (hcluster : cluster.Pairwise fun a b => a.sortKey < b.sortKey)
    (hagent : agent.Pairwise fun a b => a.sortKey < b.sortKey) :
    (compareCaches o cluster agent).Perm (joinPods o n cluster agent) := by
  obtain ⟨hloop, hend⟩ := compareLoop_compared hcluster hagent (cluster.length + agent.length)
    (compared_start (o := o) (n := n)) (by omega)
  unfold compareCaches
  generalize compareLoop o cluster agent (cluster.length + agent.length) {} = st at hloop hend
  dsimp only
  have hdiff := hloop.differences
  have hclusterFirst := hloop.clusterFirst
  have hagentFirst := hloop.agentFirst
  rcases hend with hend | hend
  · -- the pods that are left are the agent's
    rw [List.take_of_length_le hend] at hdiff hclusterFirst
    rw [List.drop_of_length_le hend, List.map_nil, List.append_nil]
    refine (hdiff.append_right _).trans (List.Perm.trans ?_
      (.of_eq (congrArg (joinPods o n cluster) (List.take_append_drop st.agentIdx agent))))
    exact (outerJoin_append_right fun x hx w hw => (hclusterFirst x hx w hw).ne').symm
  · -- or the cluster's
    rw [List.take_of_length_le hend] at hdiff hagentFirst
    rw [List.drop_of_length_le hend, List.map_nil, List.append_nil]
    refine (hdiff.append_right _).trans (List.Perm.trans ?_
      (.of_eq (congrArg (fun l => joinPods o n l agent)
        (List.take_append_drop st.clusterIdx cluster))))
    exact (outerJoin_append_left fun z hz y hy => (hagentFirst y hy z hz).ne).symm

end Loop

/-! ## Any order -/

theorem sortSlice_perm {α : Type} (key : α → String) (l : List α) : (sortSlice key l).Perm l :=
  List.perm_insertionSort _ l

theorem pairwise_sortSlice {α : Type} {key : α → String} {l : List α} (h : (l.map key).Nodup) :
    (sortSlice key l).Pairwise fun a b => key a < key b := by
  have hle : (sortSlice key l).Pairwise fun a b => key a ≤ key b := List.pairwise_insertionSort _ l
  have hne : (sortSlice key l).Pairwise fun a b => key a ≠ key b :=
    List.pairwise_map.mp (((sortSlice_perm key l).map key).nodup_iff.mpr h)
  exact (hle.and hne).imp fun hab => lt_of_le_of_ne hab.1 hab.2

theorem sortedCaches_perm (o o' : Orders) (n : Nat) {cluster : List ClusterPodView}
    {agent : List AgentPodView} (hcluster : (cluster.map ClusterPodView.sortKey).Nodup)
    (hagent : (agent.map AgentPodView.sortKey).Nodup) :
    (compareCaches o (sortSlice ClusterPodView.sortKey cluster)
      (sortSlice AgentPodView.sortKey agent)).Perm (joinPods o' n cluster agent) :=
  (compareCaches_perm n (pairwise_sortSlice hcluster) (pairwise_sortSlice hagent)).trans
    (outerJoin_perm (sortSlice_perm _ _) (sortSlice_perm _ _) fun c a =>
      comparePods_perm o o' n n c a)

/-- Two lists between which there is nothing to report. -/
def AllAgree (cluster : List ClusterPodView) (agent : List AgentPodView) : Prop :=
  (∀ id, id ∈ cluster.map ClusterPodView.sortKey ↔ id ∈ agent.map AgentPodView.sortKey) ∧
    ∀ c ∈ cluster, ∀ a ∈ agent, a.sortKey = c.sortKey → Agrees c a

theorem sortedCaches_eq_nil_iff (o : Orders) {cluster : List ClusterPodView}
    {agent : List AgentPodView} (hcluster : (cluster.map ClusterPodView.sortKey).Nodup)
    (hagent : (agent.map AgentPodView.sortKey).Nodup) :
    compareCaches o (sortSlice ClusterPodView.sortKey cluster)
      (sortSlice AgentPodView.sortKey agent) = [] ↔ AllAgree cluster agent := by
  have hperm := sortedCaches_perm o o 0 hcluster hagent
  rw [← List.length_eq_zero_iff, hperm.length_eq, List.length_eq_zero_iff, joinPods,
    outerJoin_eq_nil_iff]
  simp only [comparePods_eq_nil_iff, AllAgree]

/-- **The cache validation reports every discrepancy and nothing else**: one line for each pod that
only one side has, the differences of each pod that both have, and nothing exactly if they agree.
The containers may be visited in other orders `o'`. -/
theorem compareCaches_exact (o : Orders) {cluster : List ClusterPodView}
    {agent : List AgentPodView} (hcluster : (cluster.map ClusterPodView.sortKey).Nodup)
    (hagent : (agent.map AgentPodView.sortKey).Nodup) :
    (∀ (o' : Orders) (n : Nat), (compareCaches o (sortSlice ClusterPodView.sortKey cluster)
        (sortSlice AgentPodView.sortKey agent)).Perm
      ((cluster.filter fun c => c.sortKey ∉ agent.map AgentPodView.sortKey).map
          missingPodFromAgentCache ++
        (agent.filter fun a => a.sortKey ∉ cluster.map ClusterPodView.sortKey).map
          unexpectedPodInAgentCache ++
        cluster.flatMap fun c =>
          (agent.filter fun a => a.sortKey = c.sortKey).flatMap (comparePods o' n c))) ∧
    (compareCaches o (sortSlice ClusterPodView.sortKey cluster)
        (sortSlice AgentPodView.sortKey agent) = [] ↔ AllAgree cluster agent) :=
  ⟨fun o' n => sortedCaches_perm o o' n hcluster hagent,
    sortedCaches_eq_nil_iff o hcluster hagent⟩

namespace Sample

def stored : Orders := ⟨.stored, .stored⟩

def clusterPod (id : String) : ClusterPodView where
  id
  name := "web"
  ns := "default"
  containers := AList.singleton "c1" ⟨"c1", "app", true⟩

def agentPod (id : String) : AgentPodView where
  id
  name := "web"
  ns := "default"
  containers := ∅

/-- Each side has a pod that the other lacks. -/
theorem compareCaches_exact_apart :
    compareCaches stored (sortSlice ClusterPodView.sortKey [clusterPod "b", clusterPod "a"])
        (sortSlice AgentPodView.sortKey [agentPod "c", agentPod "b"]) =
      [missingPodFromAgentCache (clusterPod "a"), unexpectedPodInAgentCache (agentPod "c")] ∧
    ¬ AllAgree [clusterPod "b", clusterPod "a"] [agentPod "c", agentPod "b"] := by
  have hrun : compareCaches stored
      (sortSlice ClusterPodView.sortKey [clusterPod "b", clusterPod "a"])
      (sortSlice AgentPodView.sortKey [agentPod "c", agentPod "b"]) =
      [missingPodFromAgentCache (clusterPod "a"), unexpectedPodInAgentCache (agentPod "c")] := by
    decide +kernel
  refine ⟨hrun, fun hagree => ?_⟩
  rw [← (compareCaches_exact stored (by decide) (by decide)).2, hrun] at hagree
  cases hagree

end Sample

/-! ## All nodes -/

section Nodes

variable {agentCaches : GoMap String (List AgentPodView)}
  {clusterCaches : GoMap String (List ClusterPodView)}

theorem validateNode_eq_none_iff (o : Orders) {nodeName : String} {cluster : List ClusterPodView}
    (hcluster : (cluster.map ClusterPodView.sortKey).Nodup)
    (hagent : ∀ agent, agentCaches.lookup nodeName = some agent →
      (agent.map AgentPodView.sortKey).Nodup) :
    validateNode o agentCaches nodeName cluster = none ↔
      ∃ agent, agentCaches.lookup nodeName = some agent ∧ AllAgree cluster agent := by
  unfold validateNode
  cases hlook : agentCaches.lookup nodeName with
  | none => simp
  | some agent =>
    have hiff := sortedCaches_eq_nil_iff o hcluster (hagent agent hlook)
    simp [hiff]

/-- **The validation says nothing of a cluster exactly if every node agrees**: it has an agent's
cache, every agent's cache is of a node, and each pair of caches agrees. -/
theorem validateCaches_eq_nil_iff (o : String → Orders)
    (clusterOrder : Order String (List ClusterPodView))
    (agentOrder : Order String (List AgentPodView))
    (hcluster : ∀ node pods, clusterCaches.lookup node = some pods →
      (pods.map ClusterPodView.sortKey).Nodup)
    (hagent : ∀ node pods, agentCaches.lookup node = some pods →
      (pods.map AgentPodView.sortKey).Nodup) :
    validateCaches o clusterOrder agentOrder agentCaches clusterCaches = [] ↔
      (∀ node cluster, clusterCaches.lookup node = some cluster →
        ∃ agent, agentCaches.lookup node = some agent ∧ AllAgree cluster agent) ∧
      ∀ node agent, agentCaches.lookup node = some agent →
        (clusterCaches.lookup node).isSome = true := by
  rw [validateCaches, List.append_eq_nil_iff, List.filterMap_eq_nil_iff,
    List.filterMap_eq_nil_iff]
  refine and_congr ⟨fun h node cluster hlook => ?_, fun h e he => ?_⟩
    ⟨fun h node agent hlook => ?_, fun h e he => ?_⟩
  · have hnone := h ⟨node, cluster⟩ ((clusterOrder.mem_range 0).mpr hlook)
    exact (validateNode_eq_none_iff (o node) (hcluster node cluster hlook) (hagent node)).mp hnone
  · have hlook := (clusterOrder.mem_range 0).mp he
    exact (validateNode_eq_none_iff (o e.1) (hcluster e.1 e.2 hlook) (hagent e.1)).mpr
      (h e.1 e.2 hlook)
  · by_contra hnot
    have hnone := h ⟨node, agent⟩ ((agentOrder.mem_range 0).mpr hlook)
    rw [if_neg hnot] at hnone
    cases hnone
  · rw [if_pos (h e.1 e.2 ((agentOrder.mem_range 0).mp he))]

end Nodes

end RuntimeEnforcer.Debugger
