import Mathlib.Data.List.Dedup
import RuntimeEnforcer.Controller.AgentPool
import RuntimeEnforcer.Proof.Phase

/-!
# No connection is lost

A connection that was made is in the pool, under one node, or it was closed, and then once. Every
operation that takes a client out of the pool closes it, and none closes a client that it leaves
there; so a call never uses a connection that is closed (`connections_accounted`).

What a sync says of a node is what it has heard from it: there is one entry for each node with an
agent pod, and a node counts as one without a client only if no connection to any of its pods could
be made in this very sync, whatever has failed before (`entries_describe_nodes`).
-/

set_option autoImplicit false

namespace RuntimeEnforcer.Grpcexporter

open Lib Api AgentClientPool

namespace AgentClientPool

/-- The pool holds the connection for the node. -/
def Holds (p : AgentClientPool) (node : String) (c : Conn) : Prop :=
  p.clients.lookup node = some (some c)

structure Accounted (p : AgentClientPool) : Prop where
  made : ∀ node c, p.Holds node c → c < p.next
  one : ∀ node node' c, p.Holds node c → p.Holds node' c → node = node'
  opened : ∀ node c, p.Holds node c → c ∉ p.closed
  kept : ∀ c, c < p.next → c ∈ p.closed ∨ ∃ node, p.Holds node c
  known : ∀ c ∈ p.closed, c < p.next
  once : p.closed.Nodup
  called : ∀ call ∈ p.calls, call.1 ∉ call.2

variable {p : AgentClientPool}

theorem Accounted.empty : Accounted {} where
  made := fun _ _ h => nomatch h
  one := fun _ _ _ h => nomatch h
  opened := fun _ _ h => nomatch h
  kept := fun _ h => nomatch h
  known := fun _ h => nomatch h
  once := List.nodup_nil
  called := fun _ h => nomatch h

variable (h : Accounted p)

include h

theorem Accounted.insert_none {node : String} (hnone : ∀ c, ¬ p.Holds node c) :
    Accounted { p with clients := p.clients.insert node none } := by
  have hholds : ∀ n c, ({ p with clients := p.clients.insert node none } :
      AgentClientPool).Holds n c ↔ p.Holds n c := by
    intro n c
    simp only [Holds, GoMap.lookup_insert_eq]
    by_cases hn : n = node
    · subst hn
      simpa [Holds] using hnone c
    · simp [hn]
  exact
    { made := fun n c hc => h.made n c ((hholds n c).mp hc)
      one := fun n n' c hc hc' => h.one n n' c ((hholds n c).mp hc) ((hholds n' c).mp hc')
      opened := fun n c hc => h.opened n c ((hholds n c).mp hc)
      kept := fun c hc => (h.kept c hc).imp id fun ⟨n, hn⟩ => ⟨n, (hholds n c).mpr hn⟩
      known := h.known
      once := h.once
      called := h.called }

theorem Accounted.newClient {node : String} (hnone : ∀ c, ¬ p.Holds node c) :
    Accounted (p.newClient node) := by
  have hholds : ∀ n c, (p.newClient node).Holds n c → p.Holds n c ∨ n = node ∧ c = p.next := by
    intro n c hc
    simp only [Holds, AgentClientPool.newClient, GoMap.lookup_insert_eq] at hc ⊢
    by_cases hn : n = node
    · rw [if_pos hn] at hc
      exact .inr ⟨hn, (Option.some.inj (Option.some.inj hc)).symm⟩
    · rw [if_neg hn] at hc
      exact .inl hc
  have hnew : (p.newClient node).Holds node p.next := by
    simp [Holds, AgentClientPool.newClient]
  have hold : ∀ n c, p.Holds n c → (p.newClient node).Holds n c := by
    intro n c hc
    have hn : n ≠ node := by
      rintro rfl
      exact hnone c hc
    simp only [Holds, AgentClientPool.newClient, GoMap.lookup_insert_eq, if_neg hn]
    exact hc
  refine ⟨?_, ?_, ?_, ?_, ?_, h.once, h.called⟩
  · intro n c hc
    rcases hholds n c hc with hc | ⟨-, rfl⟩
    · exact Nat.lt_succ_of_lt (h.made n c hc)
    · exact Nat.lt_succ_self _
  · intro n n' c hc hc'
    rcases hholds n c hc with hold | ⟨hn, hnext⟩
    · rcases hholds n' c hc' with hold' | ⟨-, hnext⟩
      · exact h.one n n' c hold hold'
      · exact absurd (h.made n c hold) (by rw [hnext]; exact Nat.lt_irrefl _)
    · rcases hholds n' c hc' with hold' | ⟨hn', -⟩
      · exact absurd (h.made n' c hold') (by rw [hnext]; exact Nat.lt_irrefl _)
      · rw [hn, hn']
  · intro n c hc
    rcases hholds n c hc with hc | ⟨-, rfl⟩
    · exact h.opened n c hc
    · exact fun hclosed => absurd (h.known _ hclosed) (Nat.lt_irrefl _)
  · intro c hc
    rcases Nat.lt_succ_iff_lt_or_eq.mp hc with hc | rfl
    · exact (h.kept c hc).imp id fun ⟨n, hn⟩ => ⟨n, hold n c hn⟩
    · exact .inr ⟨node, hnew⟩
  · intro c hc
    exact Nat.lt_succ_of_lt (h.known c hc)

theorem Accounted.release {node : String} {client : Option Conn}
    (hclient : p.clients.lookup node = some client) {clients : GoMap String (Option Conn)}
    (hrest : ∀ n, n ≠ node → clients.lookup n = p.clients.lookup n)
    (hgone : ∀ c, clients.lookup node ≠ some (some c)) :
    Accounted { p.close client with clients } := by
  have hholds : ∀ n c, ({ p.close client with clients } : AgentClientPool).Holds n c →
      n ≠ node ∧ p.Holds n c := by
    intro n c hc
    have hn : n ≠ node := by
      rintro rfl
      exact hgone c hc
    exact ⟨hn, (hrest n hn).symm.trans hc⟩
  have hmem : ∀ c, c ∈ (p.close client).closed ↔ client = some c ∨ c ∈ p.closed := by
    intro c
    simp [AgentClientPool.close]
  refine ⟨?_, ?_, ?_, ?_, ?_, ?_, h.called⟩
  · intro n c hc
    exact h.made n c (hholds n c hc).2
  · intro n n' c hc hc'
    exact h.one n n' c (hholds n c hc).2 (hholds n' c hc').2
  · intro n c hc hclosed
    obtain ⟨hn, hold⟩ := hholds n c hc
    rcases (hmem c).mp hclosed with rfl | hclosed
    · exact hn (h.one n node c hold hclient)
    · exact h.opened n c hold hclosed
  · intro c hc
    rcases h.kept c hc with hclosed | ⟨n, hn⟩
    · exact .inl ((hmem c).mpr (.inr hclosed))
    · by_cases heq : n = node
      · subst heq
        refine .inl ((hmem c).mpr (.inl ?_))
        exact Option.some.inj (hclient.symm.trans hn)
      · exact .inr ⟨n, (hrest n heq).trans hn⟩
  · intro c hc
    rcases (hmem c).mp hc with rfl | hclosed
    · exact h.made node c hclient
    · exact h.known c hclosed
  · cases client with
    | none => exact h.once
    | some c => exact List.nodup_cons.mpr ⟨h.opened node c hclient, h.once⟩

/-! ## The operations -/

theorem Accounted.getOrCreateClient (pod : AgentPod) : Accounted (p.getOrCreateClient pod) := by
  unfold AgentClientPool.getOrCreateClient
  split
  · exact h
  · next hclient =>
    have hnone : ∀ c, ¬ p.Holds pod.nodeName c := fun c hc => hclient c hc
    split
    · exact h.newClient hnone
    · exact h.insert_none hnone

theorem Accounted.dropStale (activeNodes : List String) {e : Entry String (Option Conn)}
    (he : p.clients.lookup e.1 = some e.2) :
    Accounted (p.dropStale activeNodes e) ∧
      ∀ k, k ≠ e.1 → (p.dropStale activeNodes e).clients.lookup k = p.clients.lookup k := by
  have hrest : ∀ k, k ≠ e.1 → (p.clients.erase e.1).lookup k = p.clients.lookup k :=
    fun k hk => AList.lookup_erase_ne hk
  unfold AgentClientPool.dropStale
  split
  · exact ⟨h, fun _ _ => rfl⟩
  · exact ⟨h.release he hrest (by simp), hrest⟩

theorem Accounted.updatePool (order : Order String (Option Conn)) (pods : List AgentPod) :
    Accounted (p.updatePool order pods) := by
  have hcreated : Accounted (pods.foldl AgentClientPool.getOrCreateClient p) :=
    List.foldlRecOn pods AgentClientPool.getOrCreateClient h
      fun _ hp pod _ => hp.getOrCreateClient pod
  exact order.foldl_range_visits AgentClientPool.clients
    (fun _ _ hp he => hp.dropStale _ he) 0 hcreated

theorem Accounted.markStale {node : String} {client : Option Conn}
    (hclient : p.clients.lookup node = some client) :
    Accounted (p.markStaleAgentClient node) ∧
      ∀ k, k ≠ node → (p.markStaleAgentClient node).clients.lookup k = p.clients.lookup k := by
  have hrest : ∀ k, k ≠ node → (p.clients.insert node none).lookup k = p.clients.lookup k :=
    fun k hk => AList.lookup_insert_ne hk
  simp only [markStaleAgentClient, hclient]
  exact ⟨h.release hclient hrest (by simp), hrest⟩

theorem Accounted.call {node : String} {c : Conn} (hc : p.Holds node c) :
    Accounted { p with calls := (c, p.closed) :: p.calls } where
  made := h.made
  one := h.one
  opened := h.opened
  kept := h.kept
  known := h.known
  once := h.once
  called := by
    intro call hcall
    rcases List.mem_cons.mp hcall with rfl | hcall
    · exact h.opened node c hc
    · exact h.called call hcall

omit h

theorem Accounted.ask {α : Type} (answers : String → Option α)
    {s : AgentClientPool × List (String × Reply α)} (h : Accounted s.1)
    {e : Entry String (Option Conn)} (he : s.1.clients.lookup e.1 = some e.2) :
    Accounted (AgentClientPool.ask answers s e).1 ∧
      ∀ k, k ≠ e.1 →
        (AgentClientPool.ask answers s e).1.clients.lookup k = s.1.clients.lookup k := by
  obtain ⟨node, client⟩ := e
  cases client with
  | none => exact ⟨h, fun _ _ => rfl⟩
  | some c =>
    have hcall := h.call he
    simp only [AgentClientPool.ask]
    cases answers node with
    | some a => exact ⟨hcall, fun _ _ => rfl⟩
    | none => exact hcall.markStale he

theorem Accounted.askAll {α : Type} (h : Accounted p) (order : Order String (Option Conn))
    (answers : String → Option α) : Accounted (p.askAll order answers).1 := by
  have hround : ∀ (s : AgentClientPool × List (String × Reply α)) e, Accounted s.1 →
      s.1.clients.lookup e.1 = some e.2 → Accounted (AgentClientPool.ask answers s e).1 ∧
        ∀ k, k ≠ e.1 →
          (AgentClientPool.ask answers s e).1.clients.lookup k = s.1.clients.lookup k :=
    fun _ _ hs he => Accounted.ask answers hs he
  exact GoMap.foldl_visits (fun s : AgentClientPool × List (String × Reply α) => s.1.clients)
    hround (order.nodup_range 0 p.clients) h fun _ he => (order.mem_range 0).mp he

end AgentClientPool

/-- **A sync** keeps account of the connections, wherever it returns. -/
theorem AgentClientPool.Accounted.collect {p : AgentClientPool} (h : Accounted p) (i : SyncInput) :
    Accounted (collect i p).1 := by
  unfold Grpcexporter.collect
  split
  · exact h
  · split
    · exact h
    · next pods _ =>
      have hfirst := (h.updatePool (i.order 0) pods).askAll (i.order 1) i.statuses
      split
      · exact hfirst
      · next pods' _ =>
        exact (hfirst.updatePool (i.order 2) pods').askAll (i.order 3) i.violations

/-- **No connection is lost, none is closed twice, and none is used after it was closed**, in every
run of syncs, whatever listings, dials and calls fail. -/
theorem connections_accounted (inputs : List SyncInput) :
    let p := run (fun i p => (collect i p).1) inputs ({} : AgentClientPool)
    p.closed.Nodup ∧
      (∀ c, c < p.next → (c ∈ p.closed ↔ ¬ ∃ node, p.Holds node c)) ∧
      (∀ node node' c, p.Holds node c → p.Holds node' c → node = node') ∧
      ∀ call ∈ p.calls, call.1 ∉ call.2 := by
  intro p
  have h : Accounted p := run_inv (C := fun _ _ => True) (fun _ i hp _ => hp.collect i) .empty
    (along_of_forall (D := fun _ => True) fun _ _ => trivial)
  refine ⟨h.once, ?_, h.one, h.called⟩
  intro c hc
  constructor
  · rintro hclosed ⟨node, hnode⟩
    exact h.opened node c hnode hclosed
  · intro hnone
    exact (h.kept c hc).resolve_right hnone

/-! ## What a sync says of the nodes -/

namespace AgentClientPool

/-- There is an entry for each node that had one or has a pod, and no client only where no pod's
connection could be made. -/
structure Created (p : AgentClientPool) (pods : List AgentPod) (q : AgentClientPool) : Prop where
  entry : ∀ node, (q.clients.lookup node).isSome ↔
    (p.clients.lookup node).isSome ∨ node ∈ pods.map AgentPod.nodeName
  noClient : ∀ node, q.clients.lookup node = some none →
    ∀ pod ∈ pods, pod.nodeName = node → pod.dials = false

theorem Created.push {p q : AgentClientPool} {pods : List AgentPod} (h : Created p pods q)
    (pod : AgentPod) : Created p (pods ++ [pod]) (q.getOrCreateClient pod) := by
  have hentry : ∀ node, node ∈ (pods ++ [pod]).map AgentPod.nodeName ↔
      node ∈ pods.map AgentPod.nodeName ∨ node = pod.nodeName := by
    intro node
    simp [List.map_append]
  have hinsert : ∀ client node, ((q.clients.insert pod.nodeName client).lookup node).isSome ↔
      (p.clients.lookup node).isSome ∨ node ∈ (pods ++ [pod]).map AgentPod.nodeName := by
    intro client node
    rw [GoMap.lookup_insert_eq, hentry, ← or_assoc, ← h.entry node]
    by_cases hn : node = pod.nodeName <;> simp [hn]
  unfold getOrCreateClient
  split
  · next c hc =>
    refine ⟨?_, ?_⟩
    · intro node
      rw [hentry, ← or_assoc, ← h.entry node]
      constructor
      · exact .inl
      · rintro (hold | rfl)
        · exact hold
        · rw [hc]
          rfl
    · intro node hnone pod' hpod' hname
      rcases List.mem_append.mp hpod' with hold | hnew
      · exact h.noClient node hnone pod' hold hname
      · obtain rfl := List.mem_singleton.mp hnew
        rw [hname, hnone] at hc
        cases hc
  · next hclient =>
    split
    · refine ⟨hinsert (some q.next), ?_⟩
      intro node hnone pod' hpod' hname
      simp only [newClient, GoMap.lookup_insert_eq] at hnone
      by_cases hn : node = pod.nodeName
      · simp [hn] at hnone
      · rw [if_neg hn] at hnone
        rcases List.mem_append.mp hpod' with hold | hnew
        · exact h.noClient node hnone pod' hold hname
        · obtain rfl := List.mem_singleton.mp hnew
          exact absurd hname.symm hn
    · next hdials =>
      refine ⟨hinsert none, ?_⟩
      intro node hnone pod' hpod' hname
      rcases List.mem_append.mp hpod' with hold | hnew
      · by_cases hn : node = pod.nodeName
        · -- the node had no client before either
          subst hn
          have hsome := (h.entry pod.nodeName).mpr (.inr (List.mem_map.mpr ⟨pod', hold, hname⟩))
          obtain ⟨client, hq⟩ := Option.isSome_iff_exists.mp hsome
          cases client with
          | none => exact h.noClient pod.nodeName hq pod' hold hname
          | some c => exact absurd hq (hclient c)
        · rw [GoMap.lookup_insert_eq, if_neg hn] at hnone
          exact h.noClient node hnone pod' hold hname
      · obtain rfl := List.mem_singleton.mp hnew
        simpa using hdials

theorem created_foldl (p : AgentClientPool) (pods : List AgentPod) :
    Created p pods (pods.foldl getOrCreateClient p) := by
  induction pods using List.reverseRecOn with
  | nil => exact ⟨fun _ => by simp, fun _ _ _ h => nomatch h⟩
  | append_singleton pods pod ih =>
    rw [List.foldl_concat]
    exact ih.push pod

theorem lookup_foldl_dropStale (activeNodes : List String) (es : List (Entry String (Option Conn)))
    (p : AgentClientPool) (node : String) :
    (es.foldl (dropStale activeNodes) p).clients.lookup node =
      if node ∈ es.map Sigma.fst ∧ node ∉ activeNodes then none else p.clients.lookup node := by
  induction es generalizing p with
  | nil => simp
  | cons e es ih =>
    have hcons : node ∈ (e :: es).map Sigma.fst ↔ node = e.1 ∨ node ∈ es.map Sigma.fst := by
      rw [List.map_cons, List.mem_cons]
    rw [List.foldl_cons, ih, dropStale]
    by_cases hactive : e.1 ∈ activeNodes
    · grind
    · rw [if_neg hactive, GoMap.lookup_erase_eq]
      grind

/-- **After an update** there is an entry for each node with a pod and for no other, and one without
a client only where no connection could be made. -/
theorem updatePool_spec (order : Order String (Option Conn)) (pods : List AgentPod)
    (p : AgentClientPool) :
    (∀ node, ((p.updatePool order pods).clients.lookup node).isSome ↔
      node ∈ pods.map AgentPod.nodeName) ∧
    ∀ node, (p.updatePool order pods).clients.lookup node = some none →
      ∀ pod ∈ pods, pod.nodeName = node → pod.dials = false := by
  have hcreated := created_foldl p pods
  have hlookup : ∀ node, (p.updatePool order pods).clients.lookup node =
      if node ∈ pods.map AgentPod.nodeName then
        (pods.foldl getOrCreateClient p).clients.lookup node else none := by
    intro node
    rw [updatePool, lookup_foldl_dropStale]
    by_cases hactive : node ∈ pods.map AgentPod.nodeName
    · rw [if_pos hactive, if_neg fun h => h.2 hactive]
    · rw [if_neg hactive]
      split
      · rfl
      · next hout =>
        refine Option.eq_none_iff_forall_ne_some.mpr fun client hclient => hout ⟨?_, hactive⟩
        exact List.mem_map.mpr ⟨⟨node, client⟩, (order.mem_range 0).mpr hclient, rfl⟩
  constructor
  · intro node
    rw [hlookup]
    split
    · next hactive => simpa [hactive] using (hcreated.entry node).mpr (.inr hactive)
    · next hactive => simp [hactive]
  · intro node hnone
    rw [hlookup] at hnone
    split at hnone
    · exact hcreated.noClient node hnone
    · cases hnone

/-- What a loop over the clients notes of an entry. -/
def replyOf {α : Type} (answers : String → Option α) (e : Entry String (Option Conn)) : Reply α :=
  match e.2 with
  | none => .noClient
  | some _ =>
    match answers e.1 with
    | none => .failed
    | some a => .answer a

theorem foldl_ask {α : Type} (answers : String → Option α) (es : List (Entry String (Option Conn)))
    (s : AgentClientPool × List (String × Reply α)) :
    (es.foldl (ask answers) s).2 = s.2 ++ es.map fun e => (e.1, replyOf answers e) := by
  induction es generalizing s with
  | nil => simp
  | cons e es ih =>
    rw [List.foldl_cons, ih]
    obtain ⟨node, client⟩ := e
    cases client with
    | none => simp [ask, replyOf]
    | some c => cases ha : answers node <;> simp [ask, replyOf, ha]

end AgentClientPool

/-- The report is what was heard of the node: that there is no client, only if no connection to any
of its pods could be made; that the call has failed, only if it has; and else the answer. -/
def Heard (i : SyncInput) (pods : List AgentPod) (node : String) : NodeReport → Prop
  | .noClient => ∀ pod ∈ pods, pod.nodeName = node → pod.dials = false
  | .failed => i.statuses node = none
  | .policies statuses => i.statuses node = some statuses

/-- **One entry for each node, of what was heard from it.** In every sync that comes to process the
policies, in whatever state earlier syncs have left the pool. -/
theorem entries_describe_nodes (p : AgentClientPool) (i : SyncInput) {pods : List AgentPod}
    (hpods : i.firstPods = some pods) {q : AgentClientPool} {col : Collected}
    (hcol : collect i p = (q, some col))
    (hnames : (i.policies.map fun wp => wp.namespacedName).Nodup) {wp : Api.WorkloadPolicy}
    (hwp : wp ∈ i.policies) :
    let nodes := (col.nodeStatusByPolicy.lookup wp.namespacedName).getD []
    (nodes.map fun n => n.nodeName).Perm (pods.map AgentPod.nodeName).dedup ∧
      ∀ n ∈ nodes, ∃ report, Heard i pods n.nodeName report ∧
        n = nodeStatusOf n.nodeName report wp := by
  have hne : i.policies ≠ [] := List.ne_nil_of_mem hwp
  cases hsecond : i.secondPods with
  | none => simp [Grpcexporter.collect, hne, hpods, hsecond] at hcol
  | some pods' =>
    simp only [Grpcexporter.collect, hne, hpods, hsecond, if_false, Prod.mk.injEq,
      Option.some.injEq] at hcol
    obtain ⟨-, rfl⟩ := hcol
    obtain ⟨hentry, hnoClient⟩ := updatePool_spec (i.order 0) pods p
    generalize p.updatePool (i.order 0) pods = first at hentry hnoClient
    have hreplies : (first.askAll (i.order 1) i.statuses).2 =
        ((i.order 1).range 0 first.clients).map fun e => (e.1, replyOf i.statuses e) := by
      rw [askAll, foldl_ask]
      rfl
    intro nodes
    have hnodes : nodes = ((i.order 1).range 0 first.clients).map fun e =>
        nodeStatusOf e.1 (toReport (replyOf i.statuses e)) wp := by
      show ((getNodeStatusByPolicy _ _).lookup wp.namespacedName).getD [] = _
      rw [nodes_getNodeStatusByPolicy _ hnames hwp, hreplies, List.map_map, List.map_map]
      rfl
    have hnodeNames : nodes.map (fun n => n.nodeName) =
        ((i.order 1).range 0 first.clients).map Sigma.fst := by
      rw [hnodes, List.map_map]
      exact List.map_congr_left fun e _ => nodeStatusOf_nodeName e.1 _ wp
    constructor
    · rw [hnodeNames]
      refine (List.perm_ext_iff_of_nodup ((i.order 1).nodup_range 0 first.clients)
        (List.nodup_dedup _)).mpr fun node => ?_
      rw [List.mem_dedup, ← hentry node, List.mem_map]
      constructor
      · rintro ⟨e, he, rfl⟩
        exact Option.isSome_iff_exists.mpr ⟨e.2, ((i.order 1).mem_range 0).mp he⟩
      · intro hsome
        obtain ⟨client, hclient⟩ := Option.isSome_iff_exists.mp hsome
        exact ⟨⟨node, client⟩, ((i.order 1).mem_range 0).mpr hclient, rfl⟩
    · intro n hn
      rw [hnodes] at hn
      obtain ⟨e, he, rfl⟩ := List.mem_map.mp hn
      have hlookup := ((i.order 1).mem_range 0).mp he
      rw [nodeStatusOf_nodeName]
      refine ⟨toReport (replyOf i.statuses e), ?_, rfl⟩
      obtain ⟨node, client⟩ := e
      cases client with
      | none => exact hnoClient node hlookup
      | some c =>
        simp only [replyOf]
        cases ha : i.statuses node with
        | none => exact ha
        | some statuses => exact ha

namespace Sample

open Api.Sample (rolledOut)

/-- Two nodes, one with two agent pods during a rollout; the other cannot be dialled, and the first
does not answer. -/
def rollout : SyncInput where
  policies := [rolledOut]
  firstPods := some [⟨"node-1", false⟩, ⟨"node-2", false⟩, ⟨"node-1", true⟩]
  statuses := fun _ => none
  secondPods := some [⟨"node-1", true⟩]
  violations := fun _ => some []
  order := fun _ => .stored

example : (collect rollout {}).1.clients.lookup "node-1" = some (some 1) ∧
    (collect rollout {}).1.closed = [0] := by decide +kernel

theorem entries_describe_nodes_rollout :
    ∃ q col, collect rollout {} = (q, some col) ∧
      (((col.nodeStatusByPolicy.lookup rolledOut.namespacedName).getD []).map
        fun n => n.nodeName).Perm ["node-2", "node-1"] ∧
      ∀ n ∈ (col.nodeStatusByPolicy.lookup rolledOut.namespacedName).getD [], ∃ report,
        Heard rollout [⟨"node-1", false⟩, ⟨"node-2", false⟩, ⟨"node-1", true⟩] n.nodeName report ∧
          n = nodeStatusOf n.nodeName report rolledOut :=
  ⟨_, _, rfl, entries_describe_nodes {} rollout rfl rfl (List.nodup_singleton _)
    (List.mem_singleton.mpr rfl)⟩

end Sample

end RuntimeEnforcer.Grpcexporter
