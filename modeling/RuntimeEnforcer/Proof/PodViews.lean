import RuntimeEnforcer.Debugger.PodViews
import RuntimeEnforcer.Proof.AgentPool
import RuntimeEnforcer.Proof.NriPlugin
import RuntimeEnforcer.Proof.Validate

/-!
# What the cache validation compares

The comparison of two caches is exact (`Proof.Validate`); here it is traced back to what the caches
are made from. On one side that is the resolver of a node's agent (`listPodCache`), on the other the
statuses of the node's pods (`Pod.latest`, the last that is said of a container id). The validation
says nothing exactly if each resolver mirrors the pods of its node.
-/

set_option autoImplicit false

namespace RuntimeEnforcer

open Lib

theorem fromReports_run (env : Env) (ops : List Op) {p : PodID} {entry : PodEntry}
    (h : (run (Op.step env) ops {}).podCache.lookup p = some entry) : FromReports ops p entry := by
  refine run_inv (C := fun _ op => op ∈ ops)
    (I := fun r : Resolver => ∀ p entry, r.podCache.lookup p = some entry → FromReports ops p entry)
    ?_ ?_ (along_of_forall fun _ hop => hop) p entry h
  · intro r op hr hop
    cases op with
    | reconcile wp => exact fun p entry hentry => hr p entry (Nri.reconcile_podCache wp r ▸ hentry)
    | delete o =>
      have hdel : DeleteStep o.namespacedName r ((Op.delete o).step env r) := step_delete
      exact fun p entry hentry => hr p entry (hdel.podCache ▸ hentry)
    | addPod pod => exact addPod_cache hop hr
    | removePod podID cid => exact removePod_cache hr
  · intro p entry hentry
    exact absurd hentry (by simp)

end RuntimeEnforcer

namespace RuntimeEnforcer.Debugger

open Lib
open Grpcexporter (AgentPod AgentClientPool Conn)
open Grpcexporter.AgentClientPool (Reply replyOf foldl_ask)

/-! ## What the cluster says of a container -/

/-- What a status says, in the order it is stored in. -/
def ContainerStatus.records (s : ContainerStatus) : List ClusterContainerMeta :=
  ⟨extractContainerID s.containerID, s.name, s.terminated⟩ ::
    (s.lastTerminated.map fun id => ⟨extractContainerID id, s.name, true⟩).toList

def Pod.statuses (pod : Pod) : List ContainerStatus :=
  pod.initContainerStatuses ++ pod.containerStatuses ++ pod.ephemeralContainerStatuses

def Pod.records (pod : Pod) : List ClusterContainerMeta :=
  pod.statuses.flatMap ContainerStatus.records

/-- The last that a pod's statuses say of a container id. -/
def Pod.latest (pod : Pod) (id : String) : Option ClusterContainerMeta :=
  pod.records.reverse.find? fun c => c.id = id

def storeRecord (podView : ClusterPodView) (c : ClusterContainerMeta) : ClusterPodView :=
  { podView with containers := podView.containers.insert c.id c }

theorem addContainerToPodView_eq (podView : ClusterPodView) (s : ContainerStatus) :
    addContainerToPodView podView s = s.records.foldl storeRecord podView := by
  unfold addContainerToPodView ContainerStatus.records
  cases s.lastTerminated with
  | none => rfl
  | some id => rfl

theorem foldl_addContainerToPodView (podView : ClusterPodView) (ss : List ContainerStatus) :
    ss.foldl addContainerToPodView podView =
      (ss.flatMap ContainerStatus.records).foldl storeRecord podView := by
  have hadd : addContainerToPodView = fun podView s => s.records.foldl storeRecord podView :=
    funext₂ addContainerToPodView_eq
  rw [hadd, List.foldl_flatMap]

theorem foldl_storeRecord (podView : ClusterPodView) (cs : List ClusterContainerMeta) :
    cs.foldl storeRecord podView =
      { podView with
        containers := cs.foldl (fun m c => m.insert c.id c) podView.containers } := by
  induction cs generalizing podView with
  | nil => rfl
  | cons c cs ih => exact ih (storeRecord podView c)

theorem newClusterPodView_eq (pod : Pod) :
    newClusterPodView pod =
      { id := pod.podUID
        name := pod.name
        ns := pod.ns
        containers := pod.records.foldl (fun m c => m.insert c.id c) ∅ } := by
  unfold newClusterPodView Pod.records Pod.statuses
  simp only [foldl_addContainerToPodView, ← List.foldl_append, ← List.flatMap_append]
  exact foldl_storeRecord _ _

theorem lookup_newClusterPodView (pod : Pod) (id : String) :
    (newClusterPodView pod).containers.lookup id = pod.latest id := by
  rw [newClusterPodView_eq, GoMap.lookup_foldl_insert ClusterContainerMeta.id (fun c => c)]
  simp [Pod.latest]

/-! ## The pods of a node -/

/-- The pods that the node's cache is compared with. -/
def podsOn (pods : List Pod) (node : String) : List Pod :=
  pods.filter fun pod => pod.phase.expected ∧ pod.nodeName = node

theorem lookup_clusterCaches (pods : List Pod) (node : String) :
    (pods.foldl addClusterPod ∅).lookup node =
      if podsOn pods node = [] then none else some ((podsOn pods node).map newClusterPodView) := by
  induction pods using List.reverseRecOn with
  | nil => simp [podsOn]
  | append_singleton pods pod ih =>
    rw [List.foldl_concat, addClusterPod]
    have hpush : podsOn (pods ++ [pod]) node = podsOn pods node ++
        if pod.phase.expected ∧ pod.nodeName = node then [pod] else [] := by
      simp only [podsOn, List.filter_append, List.filter_cons, List.filter_nil, decide_eq_true_eq]
    by_cases hexp : pod.phase.expected = true
    · rw [if_pos hexp, GoMap.lookup_insert_eq]
      by_cases hnode : node = pod.nodeName
      · subst hnode
        rw [if_pos ⟨hexp, rfl⟩] at hpush
        rw [if_pos rfl, ih, hpush]
        split
        · next hnil => simp [hnil]
        · simp
      · rw [if_neg fun h => hnode h.2.symm, List.append_nil] at hpush
        rw [if_neg hnode, ih, hpush]
    · rw [if_neg fun h => hexp h.1, List.append_nil] at hpush
      rw [if_neg hexp, ih, hpush]

/-! ## The caches of the agents -/

theorem lookup_foldl_addAgentCache {replies : List (String × Reply (List AgentPodView))}
    (hnodup : (replies.map Prod.fst).Nodup) (node : String) (cache : List AgentPodView) :
    (replies.foldl addAgentCache ∅).lookup node = some cache ↔
      (node, Reply.answer cache) ∈ replies := by
  induction replies using List.reverseRecOn with
  | nil => simp
  | append_singleton replies reply ih =>
    rw [List.map_append, List.map_singleton, List.nodup_append] at hnodup
    have hih := ih hnodup.1
    have hfresh : ∀ a, (reply.1, a) ∉ replies := fun a ha =>
      hnodup.2.2 _ (List.mem_map.mpr ⟨_, ha, rfl⟩) _ List.mem_cons_self rfl
    obtain ⟨name, a⟩ := reply
    rw [List.foldl_concat, List.mem_append, List.mem_singleton, ← hih]
    cases a with
    | noClient => simp [addAgentCache]
    | failed => simp [addAgentCache]
    | answer podCacheList =>
      rw [addAgentCache]
      dsimp only
      rw [GoMap.lookup_insert_eq]
      split
      · next hname =>
        subst hname
        have hnone : ¬ (replies.foldl addAgentCache ∅).lookup node = some cache :=
          fun h => hfresh _ (hih.mp h)
        simp [hnone, eq_comm]
      · next hname => simp [hname]

/-- The node's agent is asked and answers, from the state `r`. -/
def IntegrityInput.Answers (i : IntegrityInput) (pool : AgentClientPool)
    (agentPods : List AgentPod) (node : String) (r : Resolver) : Prop :=
  (∃ conn, (pool.updatePool i.staleOrder agentPods).clients.lookup node = some (some conn)) ∧
    i.agents node = some r

def IntegrityInput.agentCaches (i : IntegrityInput) (pool : AgentClientPool)
    (agentPods : List AgentPod) : GoMap String (List AgentPodView) :=
  ((pool.updatePool i.staleOrder agentPods).askAll i.clientOrder i.listPodCache).2.foldl
    addAgentCache ∅

theorem lookup_agentCaches (i : IntegrityInput) (pool : AgentClientPool)
    (agentPods : List AgentPod) (node : String) (cache : List AgentPodView) :
    (i.agentCaches pool agentPods).lookup node = some cache ↔
      ∃ r, i.Answers pool agentPods node r ∧ listPodCache (i.snapshotOrder node) r = cache := by
  unfold IntegrityInput.agentCaches IntegrityInput.Answers
  generalize pool.updatePool i.staleOrder agentPods = first
  have hreplies : (first.askAll i.clientOrder i.listPodCache).2 =
      (i.clientOrder.range 0 first.clients).map fun e => (e.1, replyOf i.listPodCache e) := by
    rw [AgentClientPool.askAll, foldl_ask]
    rfl
  have hnodup : ((first.askAll i.clientOrder i.listPodCache).2.map Prod.fst).Nodup := by
    rw [hreplies, List.map_map]
    exact i.clientOrder.nodup_range 0 first.clients
  rw [lookup_foldl_addAgentCache hnodup, hreplies, List.mem_map]
  constructor
  · rintro ⟨⟨name, client⟩, he, heq⟩
    obtain ⟨rfl, hreply⟩ := Prod.mk.inj heq
    cases client with
    | none => cases hreply
    | some conn =>
      cases hagent : i.agents name with
      | none => simp [replyOf, IntegrityInput.listPodCache, hagent] at hreply
      | some r =>
        simp only [replyOf, IntegrityInput.listPodCache, hagent, Option.map_some,
          Reply.answer.injEq] at hreply
        exact ⟨r, ⟨⟨conn, (i.clientOrder.mem_range 0).mp he⟩, rfl⟩, hreply⟩
  · rintro ⟨r, ⟨⟨conn, hconn⟩, hagent⟩, rfl⟩
    refine ⟨⟨node, some conn⟩, (i.clientOrder.mem_range 0).mpr hconn, ?_⟩
    simp [replyOf, IntegrityInput.listPodCache, hagent]

/-! ## A snapshot -/

variable {r : Resolver}

theorem mem_listPodCache {order : Order PodID PodView} {a : AgentPodView} :
    a ∈ listPodCache order r ↔
      ∃ podID entry, r.podCache.lookup podID = some entry ∧ podViewToProto entry.toView = a := by
  unfold listPodCache Resolver.podCacheSnapshot
  rw [List.mem_map]
  constructor
  · rintro ⟨⟨podID, view⟩, he, rfl⟩
    have hview := (order.mem_range 0).mp he
    rw [GoMap.lookup_map] at hview
    obtain ⟨entry, hentry, rfl⟩ := Option.map_eq_some_iff.mp hview
    exact ⟨podID, entry, hentry, rfl⟩
  · rintro ⟨podID, entry, hentry, rfl⟩
    refine ⟨⟨podID, entry.toView⟩, (order.mem_range 0).mpr ?_, rfl⟩
    rw [GoMap.lookup_map, hentry, Option.map_some]

/-- Every pod is cached under its own id. -/
def Keyed (r : Resolver) : Prop :=
  ∀ podID entry, r.podCache.lookup podID = some entry → entry.podMeta.id = podID

theorem keyed_run (env : Env) (ops : List Op) : Keyed (run (Op.step env) ops {}) := by
  intro podID entry hentry
  obtain ⟨pod, -, hid, hmeta⟩ := (fromReports_run env ops hentry).pod
  rw [hmeta, hid]

theorem Keyed.sortKeys (h : Keyed r) (order : Order PodID PodView) :
    (listPodCache order r).map AgentPodView.sortKey =
      (order.range 0 r.podCacheSnapshot).map Sigma.fst := by
  unfold listPodCache
  rw [List.map_map]
  refine List.map_congr_left fun e he => ?_
  have hview := (order.mem_range 0).mp he
  rw [Resolver.podCacheSnapshot, GoMap.lookup_map] at hview
  obtain ⟨entry, hentry, hview⟩ := Option.map_eq_some_iff.mp hview
  show e.2.podMeta.id = e.1
  rw [← hview]
  exact h e.1 entry hentry

/-! ## The comparison -/

variable {pod : Pod}

/-- What is asked of a pod's entry: every container is cached that is not last said to be
terminated, and every cached container is in the statuses, with its name. -/
structure Mirrored (pod : Pod) (entry : PodEntry) : Prop where
  ns : entry.podMeta.ns.val = pod.ns
  name : entry.podMeta.name = pod.name
  cached : ∀ id c, pod.latest id = some c → c.terminated = false →
    (entry.containers.lookup id).isSome = true
  known : ∀ id m, entry.containers.lookup id = some m →
    ∃ c, pod.latest id = some c ∧ c.name = m.name

/-- The cache has the pods and no other. -/
structure Mirrors (pods : List Pod) (r : Resolver) : Prop where
  cached : ∀ pod ∈ pods, ∃ entry, r.podCache.lookup pod.podUID = some entry ∧ Mirrored pod entry
  known : ∀ podID entry, r.podCache.lookup podID = some entry → podID ∈ pods.map Pod.podUID

theorem agrees_iff_mirrored {entry : PodEntry} :
    Agrees (newClusterPodView pod) (podViewToProto entry.toView) ↔ Mirrored pod entry := by
  have hlookup : ∀ id, (podViewToProto entry.toView).containers.lookup id =
      (entry.containers.lookup id).map ContainerMeta.name := fun id => GoMap.lookup_map
  have hns : (newClusterPodView pod).ns = pod.ns := by rw [newClusterPodView_eq]
  have hname : (newClusterPodView pod).name = pod.name := by rw [newClusterPodView_eq]
  constructor
  · intro h
    refine ⟨h.ns.symm.trans hns, h.name.symm.trans hname, fun id c hc hterm => ?_,
      fun id m hm => ?_⟩
    · have hsome := h.cached id c ((lookup_newClusterPodView pod id).trans hc) hterm
      rwa [hlookup, Option.isSome_map] at hsome
    · have hcache : (podViewToProto entry.toView).containers.lookup id = some m.name := by
        rw [hlookup, hm, Option.map_some]
      obtain ⟨c, hc⟩ := Option.isSome_iff_exists.mp (h.known id m.name hcache)
      exact ⟨c, (lookup_newClusterPodView pod id).symm.trans hc, h.names id c m.name hc hcache⟩
  · intro h
    refine ⟨hns.trans h.ns.symm, hname.trans h.name.symm, fun id c hc hterm => ?_,
      fun id name hid => ?_, fun id c name hc hid => ?_⟩
    · rw [hlookup, Option.isSome_map]
      exact h.cached id c ((lookup_newClusterPodView pod id).symm.trans hc) hterm
    · rw [hlookup] at hid
      obtain ⟨m, hm, rfl⟩ := Option.map_eq_some_iff.mp hid
      obtain ⟨c, hc, -⟩ := h.known id m hm
      rw [lookup_newClusterPodView, hc, Option.isSome_some]
    · rw [hlookup] at hid
      obtain ⟨m, hm, rfl⟩ := Option.map_eq_some_iff.mp hid
      obtain ⟨c', hc', hname'⟩ := h.known id m hm
      rw [lookup_newClusterPodView, hc'] at hc
      exact Option.some.inj hc ▸ hname'

theorem sortKey_newClusterPodView (pod : Pod) : (newClusterPodView pod).sortKey = pod.podUID := by
  rw [ClusterPodView.sortKey, newClusterPodView_eq]

theorem map_sortKey (pods : List Pod) :
    (pods.map newClusterPodView).map ClusterPodView.sortKey = pods.map Pod.podUID := by
  rw [List.map_map]
  exact List.map_congr_left fun pod _ => sortKey_newClusterPodView pod

theorem Keyed.mem_sortKeys (h : Keyed r) {order : Order PodID PodView} {podID : PodID} :
    podID ∈ (listPodCache order r).map AgentPodView.sortKey ↔
      ∃ entry, r.podCache.lookup podID = some entry := by
  rw [List.mem_map]
  constructor
  · rintro ⟨a, ha, rfl⟩
    obtain ⟨podID, entry, hentry, rfl⟩ := mem_listPodCache.mp ha
    obtain rfl := h podID entry hentry
    exact ⟨entry, hentry⟩
  · rintro ⟨entry, hentry⟩
    exact ⟨_, mem_listPodCache.mpr ⟨podID, entry, hentry, rfl⟩, h podID entry hentry⟩

theorem allAgree_iff_mirrors (h : Keyed r) (order : Order PodID PodView) (pods : List Pod) :
    AllAgree (pods.map newClusterPodView) (listPodCache order r) ↔ Mirrors pods r := by
  unfold AllAgree
  rw [map_sortKey]
  simp only [h.mem_sortKeys]
  constructor
  · rintro ⟨hids, hagree⟩
    refine ⟨fun pod hpod => ?_, fun podID entry hentry => (hids podID).mpr ⟨entry, hentry⟩⟩
    obtain ⟨entry, hentry⟩ := (hids pod.podUID).mp (List.mem_map_of_mem hpod)
    refine ⟨entry, hentry, agrees_iff_mirrored.mp ?_⟩
    refine hagree _ (List.mem_map_of_mem hpod) _ (mem_listPodCache.mpr ⟨_, entry, hentry, rfl⟩) ?_
    exact (h _ entry hentry).trans (sortKey_newClusterPodView pod).symm
  · intro hm
    refine ⟨fun podID => ⟨fun hid => ?_, fun ⟨entry, hentry⟩ => hm.known podID entry hentry⟩, ?_⟩
    · obtain ⟨pod, hpod, rfl⟩ := List.mem_map.mp hid
      obtain ⟨entry, hentry, -⟩ := hm.cached pod hpod
      exact ⟨entry, hentry⟩
    · intro c hc a ha hkey
      obtain ⟨pod, hpod, rfl⟩ := List.mem_map.mp hc
      obtain ⟨podID, entry, hentry, rfl⟩ := mem_listPodCache.mp ha
      rw [sortKey_newClusterPodView] at hkey
      obtain rfl : podID = pod.podUID := (h podID entry hentry).symm.trans hkey
      obtain ⟨entry', hentry', hmirrored⟩ := hm.cached pod hpod
      obtain rfl := Option.some.inj (hentry.symm.trans hentry')
      exact agrees_iff_mirrored.mpr hmirrored

/-! ## The validation -/

variable {node : String}

section Validation

variable {i : IntegrityInput} {pool : AgentClientPool} {agentPods : List AgentPod}
  {pods : List Pod}

theorem validatePodCacheIntegrity_ok (hagentPods : i.agentPods = .ok agentPods)
    (hpods : i.pods = .ok pods) :
    (validatePodCacheIntegrity i pool).2 = .ok (validateCaches i.containerOrders i.clusterOrder
      i.agentOrder (i.agentCaches pool agentPods) (pods.foldl addClusterPod ∅)) := by
  simp only [validatePodCacheIntegrity, hagentPods, hpods]
  rfl

/-- Every agent that answers has run from the start. -/
def IntegrityInput.Started (i : IntegrityInput) : Prop :=
  ∀ node r, i.agents node = some r → ∃ env ops, r = run (Op.step env) ops {}

theorem IntegrityInput.Started.keyed (h : i.Started) (hr : i.Answers pool agentPods node r) :
    Keyed r := by
  obtain ⟨env, ops, rfl⟩ := h node r hr.2
  exact keyed_run env ops

theorem nodup_agentCaches (h : i.Started) {cache : List AgentPodView}
    (hcache : (i.agentCaches pool agentPods).lookup node = some cache) :
    (cache.map AgentPodView.sortKey).Nodup := by
  obtain ⟨r, hr, rfl⟩ := (lookup_agentCaches i pool agentPods node cache).mp hcache
  rw [(h.keyed hr).sortKeys]
  exact (i.snapshotOrder node).nodup_range 0 _

theorem lookup_clusterCaches_eq_some {cache : List ClusterPodView} :
    (pods.foldl addClusterPod ∅).lookup node = some cache ↔
      podsOn pods node ≠ [] ∧ (podsOn pods node).map newClusterPodView = cache := by
  rw [lookup_clusterCaches]
  split
  · next hnil => simp [hnil]
  · next hnil => simp [hnil]

/-- **The validation says nothing exactly if every cache mirrors the cluster**: the agents that
answer are those of the nodes with a pod that is running or has ended, and the cache of each has
these pods and no other. It has each container that a pod's statuses do not last say is terminated,
and none that they do not name. -/
theorem silent_iff_mirrors (i : IntegrityInput) (pool : AgentClientPool)
    {agentPods : List AgentPod} {pods : List Pod} (hagentPods : i.agentPods = .ok agentPods)
    (hpods : i.pods = .ok pods) (hids : ∀ node, ((podsOn pods node).map Pod.podUID).Nodup)
    (hstarted : i.Started) :
    (validatePodCacheIntegrity i pool).2 = .ok [] ↔
      (∀ node, podsOn pods node ≠ [] ↔ ∃ r, i.Answers pool agentPods node r) ∧
        ∀ node r, i.Answers pool agentPods node r → Mirrors (podsOn pods node) r := by
  have hcluster : ∀ node cache, (pods.foldl addClusterPod ∅).lookup node = some cache →
      (cache.map ClusterPodView.sortKey).Nodup := by
    intro node cache hcache
    obtain ⟨-, rfl⟩ := lookup_clusterCaches_eq_some.mp hcache
    exact map_sortKey (podsOn pods node) ▸ hids node
  rw [validatePodCacheIntegrity_ok hagentPods hpods, Except.ok.injEq,
    validateCaches_eq_nil_iff _ _ _ hcluster fun _ _ => nodup_agentCaches hstarted]
  constructor
  · rintro ⟨hcaches, hnodes⟩
    have hanswers : ∀ node, podsOn pods node ≠ [] → ∃ r, i.Answers pool agentPods node r ∧
        Mirrors (podsOn pods node) r := by
      intro node hne
      obtain ⟨cache, hcache, hagree⟩ :=
        hcaches node _ (lookup_clusterCaches_eq_some.mpr ⟨hne, rfl⟩)
      obtain ⟨r, hr, rfl⟩ := (lookup_agentCaches i pool agentPods node cache).mp hcache
      exact ⟨r, hr, (allAgree_iff_mirrors (hstarted.keyed hr) _ _).mp hagree⟩
    have hexpected : ∀ node r, i.Answers pool agentPods node r → podsOn pods node ≠ [] := by
      intro node r hr
      have hsome := hnodes node _ ((lookup_agentCaches i pool agentPods node _).mpr ⟨r, hr, rfl⟩)
      obtain ⟨cache, hcache⟩ := Option.isSome_iff_exists.mp hsome
      exact (lookup_clusterCaches_eq_some.mp hcache).1
    refine ⟨fun node => ⟨fun hne => ?_, fun ⟨r, hr⟩ => hexpected node r hr⟩, fun node r hr => ?_⟩
    · obtain ⟨r, hr, -⟩ := hanswers node hne
      exact ⟨r, hr⟩
    · obtain ⟨r', hr', hmirrors⟩ := hanswers node (hexpected node r hr)
      obtain rfl := Option.some.inj (hr.2.symm.trans hr'.2)
      exact hmirrors
  · rintro ⟨hnodes, hmirrors⟩
    refine ⟨fun node cache hcache => ?_, fun node cache hcache => ?_⟩
    · obtain ⟨hne, rfl⟩ := lookup_clusterCaches_eq_some.mp hcache
      obtain ⟨r, hr⟩ := (hnodes node).mp hne
      exact ⟨_, (lookup_agentCaches i pool agentPods node _).mpr ⟨r, hr, rfl⟩,
        (allAgree_iff_mirrors (hstarted.keyed hr) _ _).mpr (hmirrors node r hr)⟩
    · obtain ⟨r, hr, -⟩ := (lookup_agentCaches i pool agentPods node cache).mp hcache
      rw [lookup_clusterCaches, if_neg ((hnodes node).mpr ⟨r, hr⟩), Option.isSome_some]

end Validation

namespace Sample

def told : List Op := [.addPod (RuntimeEnforcer.Sample.pod "a" "c1" 7)]

/-- The same pod in the cluster, whose container has crashed and waits for its restart. -/
def crashed (ephemeralContainerStatuses : List ContainerStatus) : Pod where
  uid := "a"
  name := "a"
  ns := "default"
  annotations := ∅
  nodeName := "node-1"
  phase := .running
  initContainerStatuses := []
  containerStatuses := [⟨"containerd://c1", "app", false, some "containerd://c1"⟩]
  ephemeralContainerStatuses

def oneNode (pod : Pod) : IntegrityInput where
  agentPods := .ok [⟨"node-1", true⟩]
  agents := fun node => if node = "node-1" then some (run (Op.step .calm) told {}) else none
  pods := .ok [pod]
  staleOrder := .stored
  clientOrder := .stored
  snapshotOrder := fun _ => .stored
  containerOrders := fun _ => stored
  clusterOrder := .stored
  agentOrder := .stored

theorem oneNode_agent (h : (oneNode pod).agents node = some r) :
    r = run (Op.step .calm) told {} := by
  have hr := Option.ite_none_right_eq_some.mp h
  exact (Option.some.inj hr.2).symm

theorem nodup_podsOn (pod : Pod) (node : String) :
    ((podsOn [pod] node).map Pod.podUID).Nodup :=
  (List.nodup_singleton pod.podUID).sublist (List.filter_sublist.map Pod.podUID)

/-- The crashed container is still cached, and counts as terminated. -/
theorem silent_iff_mirrors_crashed :
    (validatePodCacheIntegrity (oneNode (crashed [])) {}).2 = .ok [] ∧
      Mirrors (podsOn [crashed []] "node-1") (run (Op.step .calm) told {}) := by
  have hrun : (validatePodCacheIntegrity (oneNode (crashed [])) {}).2.toOption.map List.length =
      some 0 := by decide +kernel
  have hsilent : (validatePodCacheIntegrity (oneNode (crashed [])) {}).2 = .ok [] := by
    cases hres : (validatePodCacheIntegrity (oneNode (crashed [])) {}).2 with
    | error err => simp [hres, Except.toOption] at hrun
    | ok reports => simpa [hres, Except.toOption] using hrun
  refine ⟨hsilent, ((silent_iff_mirrors (oneNode (crashed [])) {} rfl rfl (nodup_podsOn _)
    fun node r hr => ⟨_, _, oneNode_agent hr⟩).mp hsilent).2 "node-1" _ ⟨⟨0, ?_⟩, rfl⟩⟩
  decide +kernel

end Sample

/-! ## Containers without an id -/

theorem validateNode_nodeName {o : Orders} {agentCaches : GoMap String (List AgentPodView)}
    {nodeName : String} {cluster : List ClusterPodView} {report : NodeReport}
    (h : validateNode o agentCaches nodeName cluster = some report) :
    report.nodeName = nodeName := by
  unfold validateNode at h
  split at h
  · obtain rfl := Option.some.inj h
    rfl
  · dsimp only at h
    split at h
    · obtain rfl := Option.some.inj h
      rfl
    · cases h

theorem latest_of_waiting {s : ContainerStatus} (hs : s ∈ pod.statuses) (hid : s.containerID = "")
    (hended : ∀ c ∈ pod.records, c.terminated = true → c.id ≠ "") :
    ∃ c, pod.latest "" = some c ∧ c.terminated = false := by
  have hrecord : (⟨"", s.name, s.terminated⟩ : ClusterContainerMeta) ∈ pod.records := by
    refine List.mem_flatMap.mpr ⟨s, hs, ?_⟩
    have hextract : extractContainerID s.containerID = "" := by
      rw [hid]
      decide +kernel
    rw [ContainerStatus.records, hextract]
    exact List.mem_cons_self
  have hfound : (pod.latest "").isSome = true :=
    List.find?_isSome.mpr ⟨_, List.mem_reverse.mpr hrecord, by simp⟩
  obtain ⟨c, hc⟩ := Option.isSome_iff_exists.mp hfound
  have hcid : c.id = "" := by simpa using List.find?_some hc
  refine ⟨c, hc, Bool.eq_false_iff.mpr fun hterm => ?_⟩
  exact hended c (List.mem_reverse.mp (List.mem_of_find?_eq_some hc)) hterm hcid

/-- **A container that waits for its first start is always reported**, by a line about its node,
whatever the agent has cached: its id is empty, and no agent is ever told of a container with an
empty id. -/
theorem waiting_reported (i : IntegrityInput) (pool : AgentClientPool)
    {agentPods : List AgentPod} {pods : List Pod} (hagentPods : i.agentPods = .ok agentPods)
    (hpods : i.pods = .ok pods) (hids : ∀ node, ((podsOn pods node).map Pod.podUID).Nodup)
    (hstarted : ∀ node r, i.agents node = some r → ∃ env ops, r = run (Op.step env) ops {} ∧
      ∀ input, .addPod input ∈ ops → input.containers.lookup "" = none)
    {pod : Pod} (hpod : pod ∈ pods) (hexpected : pod.phase.expected = true)
    {s : ContainerStatus} (hs : s ∈ pod.statuses) (hid : s.containerID = "")
    (hended : ∀ c ∈ pod.records, c.terminated = true → c.id ≠ "") :
    ∃ reports, (validatePodCacheIntegrity i pool).2 = .ok reports ∧
      ∃ report ∈ reports, report.nodeName = pod.nodeName := by
  have hon : pod ∈ podsOn pods pod.nodeName :=
    List.mem_filter.mpr ⟨hpod, by simp [hexpected]⟩
  have hstarted' : i.Started := by
    intro node r hr
    obtain ⟨env, ops, hrun, -⟩ := hstarted node r hr
    exact ⟨env, ops, hrun⟩
  refine ⟨_, validatePodCacheIntegrity_ok hagentPods hpods, ?_⟩
  have hcache : (pods.foldl addClusterPod ∅).lookup pod.nodeName =
      some ((podsOn pods pod.nodeName).map newClusterPodView) :=
    lookup_clusterCaches_eq_some.mpr ⟨List.ne_nil_of_mem hon, rfl⟩
  cases hreport : validateNode (i.containerOrders pod.nodeName) (i.agentCaches pool agentPods)
      pod.nodeName ((podsOn pods pod.nodeName).map newClusterPodView) with
  | some report =>
    refine ⟨report, List.mem_append_left _ (List.mem_filterMap.mpr ⟨⟨_, _⟩, ?_, hreport⟩),
      validateNode_nodeName hreport⟩
    exact (i.clusterOrder.mem_range 0).mpr hcache
  | none =>
    -- the cache would have the container
    rw [validateNode_eq_none_iff _ (map_sortKey (podsOn pods pod.nodeName) ▸ hids pod.nodeName)
      fun _ => nodup_agentCaches hstarted'] at hreport
    obtain ⟨cache, hlook, hagree⟩ := hreport
    obtain ⟨r, hr, rfl⟩ := (lookup_agentCaches i pool agentPods _ cache).mp hlook
    have hmirrors := (allAgree_iff_mirrors (hstarted'.keyed hr) _ _).mp hagree
    obtain ⟨entry, hentry, hmirrored⟩ := hmirrors.cached pod hon
    obtain ⟨c, hlatest, hterm⟩ := latest_of_waiting hs hid hended
    obtain ⟨m, hm⟩ := Option.isSome_iff_exists.mp (hmirrored.cached "" c hlatest hterm)
    obtain ⟨env, ops, rfl, hnamed⟩ := hstarted _ r hr.2
    obtain ⟨input, ci, hinput, -, hci, -⟩ := (fromReports_run env ops hentry).containers "" m hm
    rw [hnamed input hinput] at hci
    cases hci

namespace Sample

/-- A debug container whose image is still being pulled. -/
def pulling : ContainerStatus := ⟨"", "debug", false, none⟩

theorem waiting_reported_pulling :
    ∃ reports, (validatePodCacheIntegrity (oneNode (crashed [pulling])) {}).2 = .ok reports ∧
      ∃ report ∈ reports, report.nodeName = "node-1" := by
  have htold : ∀ input, .addPod input ∈ told → input.containers.lookup "" = none := by
    intro input hinput
    obtain rfl : input = RuntimeEnforcer.Sample.pod "a" "c1" 7 := by simpa [told] using hinput
    decide +kernel
  exact waiting_reported (oneNode (crashed [pulling])) {} rfl rfl (nodup_podsOn _)
    (fun node r hr => ⟨_, _, oneNode_agent hr, htold⟩) (List.mem_singleton.mpr rfl) rfl
    (s := pulling) (List.mem_append_right _ (List.mem_singleton.mpr rfl)) rfl (by decide +kernel)

end Sample

end RuntimeEnforcer.Debugger
