import RuntimeEnforcer.Proof.Ledger

/-!
# Whose rules a cgroup is judged by

Each id has one owner for its whole life: the container of the policy it was given out for. The
owners are kept in a log that is never rewritten, and everything else is said in terms of it: what a
name holds, what is stored under an id at any moment, and what a cgroup is bound to at any moment.
A binding or a list that a failure leaves behind changes none of this, so it is enough that a
container's reports agree with each other.
-/

set_option autoImplicit false

namespace RuntimeEnforcer

open Lib

/-! ## The log -/

/-- An id, with the container of the policy it was given out for. -/
structure Grant where
  key : NamespacedPolicyName
  name : ContainerName
  id : PolicyID
  deriving DecidableEq, Repr

/-- The ids an operation gives out. -/
def Op.grants (env : Env) (op : Op) (r : Resolver) : List Grant :=
  match op with
  | .reconcile wp => (wp.grants env (r.scope wp.namespacedName)).map fun x =>
      ⟨wp.namespacedName, x.1, x.2⟩
  | _ => []

/-- A resolver, and the ids it has ever given out, oldest first. -/
structure Audit where
  resolver : Resolver := {}
  log : List Grant := []

def Audit.step (env : Env) (op : Op) (a : Audit) : Audit where
  resolver := op.step env a.resolver
  log := a.log ++ op.grants env a.resolver

/-- A pod's reports agree on its namespace and policy label. -/
def PodsAgree (ops : List Op) : Prop :=
  ∀ a b, .addPod a ∈ ops → .addPod b ∈ ops → a.podMeta.id = b.podMeta.id →
    a.podMeta.ns = b.podMeta.ns ∧ a.podMeta.policyName = b.podMeta.policyName

/-- What `m` has under `id` are values and settings of the rules of container `name` in specs of
policy `key` that were reconciled. -/
structure FromRules (ops : List Op) (key : NamespacedPolicyName) (name : ContainerName)
    (m : BpfMaps) (id : PolicyID) : Prop where
  values : ∀ i inner v, m.polStrMaps i id = some inner → v ∈ inner →
    ∃ wp rules, .reconcile wp ∈ ops ∧ wp.namespacedName = key ∧
      wp.rulesByContainer.lookup name = some rules ∧
      ∃ a ∈ rules.allowed, v = padTo (stringMapsSizes i) a
  settings : ∀ st, m.policySettings id = some st →
    ∃ wp rules, .reconcile wp ∈ ops ∧ wp.namespacedName = key ∧
      wp.rulesByContainer.lookup name = some rules ∧
      st = settingsOf wp.mode rules.allowForeignRootExec

/-! ## The invariant -/

/-- A container of the reports has cgroup `cg`, and its policy and name are given. -/
def Reported (ops : List Op) (key : NamespacedPolicyName) (name : ContainerName) (cg : CgroupID) :
    Prop :=
  ∃ pod cid ci, .addPod pod ∈ ops ∧ pod.podMeta.policyKey = key ∧
    pod.containers.lookup cid = some ci ∧ ci.name = name ∧ ci.cgroupID = cg

/-- Everything in `m` is accounted for by the log. -/
structure Accounted (ops : List Op) (log : List Grant) (m : BpfMaps) : Prop where
  contents : ∀ id, Populated m id → ∃ k n, ⟨k, n, id⟩ ∈ log
  rules : ∀ k n id, ⟨k, n, id⟩ ∈ log → FromRules ops k n m id
  bound : ∀ cg id, m.cgToPolicy.lookup cg = some id →
    ∃ k n, ⟨k, n, id⟩ ∈ log ∧ Reported ops k n cg

/-- The entry is of a pod that was reported with this data, and so were its containers. -/
structure FromReports (ops : List Op) (p : PodID) (entry : PodEntry) : Prop where
  pod : ∃ pod, .addPod pod ∈ ops ∧ pod.podMeta.id = p ∧ entry.podMeta = pod.podMeta
  containers : ∀ cid c, entry.containers.lookup cid = some c →
    ∃ pod ci, .addPod pod ∈ ops ∧ pod.podMeta.id = p ∧ pod.containers.lookup cid = some ci ∧
      ci.toContainerMeta = c

/-- The invariant; `ops` are the operations of the whole run. -/
structure Audited (ops : List Op) (a : Audit) : Prop where
  ids : Ids a.resolver
  log : a.log.map Grant.id = List.range' 1 a.log.length
  next : a.resolver.nextPolicyID = 1 + a.log.length
  pol : ∀ k n id, a.resolver.pol k n = some id → ⟨k, n, id⟩ ∈ a.log
  maps : ∀ m ∈ a.resolver.world.history, Accounted ops a.log m
  cache : ∀ p entry, a.resolver.podCache.lookup p = some entry → FromReports ops p entry

section

variable {B : Set (CgroupID × PolicyID)}

variable {env : Env} {ops : List Op} {a : Audit} {r r' : Resolver} {log log' : List Grant}
  {m₀ m : BpfMaps}

theorem mem_log_iff (h : log.map Grant.id = List.range' 1 log.length) {g g' : Grant}
    (hg : g ∈ log) (hg' : g' ∈ log) (hid : g.id = g'.id) : g = g' := by
  have hnd : (log.map Grant.id).Nodup := h ▸ List.nodup_range'
  exact List.inj_on_of_nodup_map hnd hg hg' hid

theorem PodsAgree.policyKey (h : PodsAgree ops) {x y : PodInput} (hx : .addPod x ∈ ops)
    (hy : .addPod y ∈ ops) (hid : x.podMeta.id = y.podMeta.id) :
    x.podMeta.policyKey = y.podMeta.policyKey := by
  obtain ⟨hns, hname⟩ := h x y hx hy hid
  unfold PodMeta.policyKey
  rw [hns, hname]

theorem FromReports.reported (h : PodsAgree ops) {p : PodID} {entry : PodEntry}
    (hf : FromReports ops p entry) {cid : ContainerID} {c : ContainerMeta}
    (hc : entry.containers.lookup cid = some c) :
    Reported ops entry.podMeta.policyKey c.name c.cgroupID := by
  obtain ⟨x, hx, hxid, hxm⟩ := hf.pod
  obtain ⟨y, ci, hy, hyid, hci, rfl⟩ := hf.containers cid c hc
  refine ⟨y, cid, ci, hy, ?_, hci, rfl, rfl⟩
  rw [hxm]
  exact h.policyKey hy hx (hyid.trans hxid.symm)

theorem Accounted.grow (h : Accounted ops log m) (hsub : ∀ g ∈ log, g ∈ log')
    (hnew : ∀ g ∈ log', g ∈ log ∨ ¬ Populated m g.id) : Accounted ops log' m where
  contents id hp := by
    obtain ⟨k, n, hg⟩ := h.contents id hp
    exact ⟨k, n, hsub _ hg⟩
  rules k n id hg := by
    rcases hnew _ hg with hold | hnone
    · exact h.rules k n id hold
    · -- nothing is stored under an id that is still to be given out
      constructor
      · intro i inner v hi _
        exact absurd (.inl ⟨i, by simp [hi]⟩) hnone
      · intro st hst
        exact absurd (.inr (by simp [hst])) hnone
  bound cg id hb := by
    obtain ⟨k, n, hg, hrep⟩ := h.bound cg id hb
    exact ⟨k, n, hsub _ hg, hrep⟩

theorem Accounted.sourced {wp : WorkloadPolicy} {own : Set (ContainerName × PolicyID)}
    (h : Accounted ops log m₀) (hlog : log.map Grant.id = List.range' 1 log.length)
    (hwp : .reconcile wp ∈ ops) (hown : ∀ x ∈ own, ⟨wp.namespacedName, x.1, x.2⟩ ∈ log)
    (hB : ∀ x ∈ B, ∃ k n, ⟨k, n, x.2⟩ ∈ log ∧ Reported ops k n x.1)
    (hm : Sourced env wp own B m₀ m) :
    Accounted ops log m where
  contents id hp := by
    rcases hm.populated hp with hp₀ | ⟨n, hn⟩
    · exact h.contents id hp₀
    · exact ⟨_, n, hown _ hn⟩
  rules k n id hg := by
    have howner : ∀ n', (n', id) ∈ own → wp.namespacedName = k ∧ n' = n := by
      intro n' hn'
      have heq := mem_log_iff hlog (hown _ hn') hg rfl
      simp only [Grant.mk.injEq, and_true] at heq
      exact heq
    constructor
    · intro i inner v hi hv
      rcases hm.strings id i with hk | hk | ⟨n', rules, hn', hr, hk⟩
      · exact (h.rules k n id hg).values i inner v (hk ▸ hi) hv
      · exact absurd hi (by simp [hk])
      · obtain ⟨rfl, rfl⟩ := howner n' hn'
        obtain ⟨b, hb, _, hpad⟩ := mem_newClass (hk ▸ hi) hv
        exact ⟨wp, rules, hwp, rfl, hr, b, hb, hpad⟩
    · intro st hst
      rcases hm.settings id with hk | hk | ⟨n', rules, hn', hr, hk⟩
      · exact (h.rules k n id hg).settings st (hk ▸ hst)
      · exact absurd hst (by simp [hk])
      · obtain ⟨rfl, rfl⟩ := howner n' hn'
        exact ⟨wp, rules, hwp, rfl, hr, Option.some.inj (hst.symm.trans hk)⟩
  bound cg id hb := by
    rcases hm.bound cg id hb with hold | hnew
    · exact h.bound cg id hold
    · exact hB _ hnew

theorem Accounted.thin {D : Set PolicyID} (h : Accounted ops log m₀)
    (hB : ∀ x ∈ B, ∃ k n, ⟨k, n, x.2⟩ ∈ log ∧ Reported ops k n x.1) (hm : Thinning D B m₀ m) :
    Accounted ops log m where
  contents id hp := h.contents id (hm.populated hp)
  rules k n id hg := by
    constructor
    · intro i inner v hi hv
      rcases hm.strings id i with hk | hk
      · exact (h.rules k n id hg).values i inner v (hk ▸ hi) hv
      · exact absurd hi (by simp [hk])
    · intro st hst
      rcases hm.settings id with hk | hk
      · exact (h.rules k n id hg).settings st (hk ▸ hst)
      · exact absurd hst (by simp [hk])
  bound cg id hb := by
    rcases hm.bound cg id hb with hold | hnew
    · exact h.bound cg id hold
    · exact hB _ hnew

theorem mem_history (w : World) : w.maps ∈ w.history := by simp [World.history]

/-! ## The operations -/

variable {pod : PodInput}

theorem Audited.fresh (h : Audited ops a) {id : PolicyID} (hid : a.resolver.nextPolicyID ≤ id)
    (hm : m ∈ a.resolver.world.history) : ¬ Populated m id := by
  intro hp
  obtain ⟨k, n, hg⟩ := (h.maps m hm).contents id hp
  have hmem : id ∈ a.log.map Grant.id := List.mem_map.mpr ⟨_, hg, rfl⟩
  rw [h.log, List.mem_range'_1] at hmem
  rw [h.next] at hid
  exact absurd hmem.2 (Nat.not_lt.mpr hid)

theorem Audited.reconcile (hpods : PodsAgree ops) (h : Audited ops a) {wp : WorkloadPolicy}
    (hwp : .reconcile wp ∈ ops) : Audited ops (a.step env (.reconcile wp)) := by
  obtain ⟨s, status, hstep, hrec⟩ := step_reconcile env wp h.ids
  have hren := hrec.renumbers
  have hres : (a.step env (.reconcile wp)).resolver
      = a.resolver.commit wp.namespacedName s status := hstep
  let new := wp.grants env (a.resolver.scope wp.namespacedName)
  have hlog : (a.step env (.reconcile wp)).log
      = a.log ++ new.map fun x => ⟨wp.namespacedName, x.1, x.2⟩ := rfl
  have hids : new.map Prod.snd = List.range' (1 + a.log.length) new.length := h.next ▸ hren.ids
  have hsub : ∀ g ∈ a.log, g ∈ (a.step env (.reconcile wp)).log := fun g hg =>
    hlog ▸ List.mem_append_left _ hg
  have hrange : (a.step env (.reconcile wp)).log.map Grant.id
      = List.range' 1 (a.step env (.reconcile wp)).log.length := by
    rw [hlog, List.map_append, List.length_append, List.length_map, h.log, List.map_map,
      ← List.range'_append_1, ← hids]
    rfl
  -- an id of the policy's is in the log
  have hown : ∀ x ∈ (a.resolver.scope wp.namespacedName).owned new,
      ⟨wp.namespacedName, x.1, x.2⟩ ∈ (a.step env (.reconcile wp)).log := by
    rintro x (hold | hnew)
    · exact hsub _ (h.pol _ _ _ ((Resolver.scope_lookup x.1).symm.trans hold))
    · exact hlog ▸ List.mem_append_right _ (List.mem_map.mpr ⟨x, hnew, rfl⟩)
  constructor
  case ids => exact h.ids.step _
  case log => exact hrange
  case next =>
    have hnext : s.nextPolicyID = a.resolver.nextPolicyID + new.length := hren.next
    rw [hres, hlog, List.length_append, List.length_map]
    show s.nextPolicyID = _
    rw [hnext, h.next, Nat.add_assoc]
  case pol =>
    intro k n id hid
    rw [hres, Resolver.pol_commit] at hid
    split at hid
    · next hk =>
      subst hk
      exact hown _ (hren.polFrom n id hid)
    · exact hsub _ (h.pol k n id hid)
  case maps =>
    intro m hm
    rw [hres] at hm
    -- what was seen before: the new ids had nothing stored
    have hgrow : ∀ m ∈ a.resolver.world.history,
        Accounted ops (a.step env (.reconcile wp)).log m := by
      intro m hm
      refine (h.maps m hm).grow hsub fun g hg => ?_
      rw [hlog] at hg
      rcases List.mem_append.mp hg with hold | hnew
      · exact .inl hold
      · obtain ⟨x, hx, rfl⟩ := List.mem_map.mp hnew
        have hmem : x.2 ∈ new.map Prod.snd := List.mem_map.mpr ⟨x, hx, rfl⟩
        rw [hids, List.mem_range'_1] at hmem
        exact .inr (h.fresh (h.next ▸ hmem.1) hm)
    rcases hren.moves.mem hm with hold | hsrc
    · exact hgrow m hold
    · refine (hgrow _ (mem_history _)).sourced hrange hwp hown ?_ hsrc
      rintro ⟨cg, id⟩ ⟨c, hc, rfl, hmem⟩
      obtain ⟨p, entry, hentry, hkey, cid, hcid⟩ := hc
      refine ⟨wp.namespacedName, c.name, hown _ hmem, ?_⟩
      exact hkey ▸ (h.cache p entry hentry).reported hpods hcid
  case cache =>
    intro p entry hentry
    rw [hres] at hentry
    exact h.cache p entry hentry

theorem Audited.delete (h : Audited ops a) (o : ObjectMeta) :
    Audited ops (a.step env (.delete o)) := by
  have hdel : DeleteStep o.namespacedName a.resolver (a.step env (.delete o)).resolver :=
    step_delete
  have hlog : (a.step env (.delete o)).log = a.log := List.append_nil _
  constructor
  case ids => exact h.ids.step _
  case log => exact hlog ▸ h.log
  case next => rw [hdel.next, hlog, h.next]
  case pol =>
    intro k n id hid
    rw [hdel.pol] at hid
    split at hid
    · exact absurd hid (by simp)
    · exact hlog ▸ h.pol k n id hid
  case maps =>
    intro m hm
    rw [hlog]
    rcases hdel.moves.mem hm with hold | hthin
    · exact h.maps m hold
    · exact (h.maps _ (mem_history _)).thin (fun _ hx => hx.elim) hthin
  case cache => exact fun p entry hentry => h.cache p entry (hdel.podCache ▸ hentry)

theorem Audited.pods (h : Audited ops a) (hids : Ids r') (hstep : PodStep B a.resolver r')
    (hB : ∀ x ∈ B, ∃ k n, ⟨k, n, x.2⟩ ∈ a.log ∧ Reported ops k n x.1)
    (hcache : ∀ p entry, r'.podCache.lookup p = some entry → FromReports ops p entry) :
    Audited ops ⟨r', a.log⟩ where
  ids := hids
  log := h.log
  next := hstep.next.trans h.next
  pol k n id hid := h.pol k n id ((Resolver.pol_congr hstep.wpState k n).symm.trans hid)
  maps m hm := by
    rcases hstep.moves.mem hm with hold | hthin
    · exact h.maps m hold
    · exact (h.maps _ (mem_history _)).thin hB hthin
  cache := hcache

/-! What a report leaves in the cache. -/

theorem Adding.fromReports {st₀ st : PodEntry} {V : Set ContainerID} (h : Adding r pod st₀ V st r')
    (hpod : .addPod pod ∈ ops) (h₀ : FromReports ops pod.podMeta.id st₀) :
    FromReports ops pod.podMeta.id st where
  pod := h.podMeta ▸ h₀.pod
  containers cid c hc := by
    rcases h.source cid c hc with hold | ⟨ci, hci, hmeta⟩
    · exact h₀.containers cid c hold
    · exact ⟨pod, ci, hpod, rfl, hci, hmeta⟩

theorem Adding.cache {st₀ st : PodEntry} {V : Set ContainerID} (h : Adding r pod st₀ V st r')
    (hr : ∀ p entry, r.podCache.lookup p = some entry → FromReports ops p entry)
    (hst : FromReports ops pod.podMeta.id st) :
    ∀ p entry, r'.podCache.lookup p = some entry → FromReports ops p entry := by
  intro p entry hentry
  by_cases hp : p = pod.podMeta.id
  · subst hp
    rw [h.entry] at hentry
    obtain ⟨_, _, rfl⟩ := Option.map_eq_some_iff.mp hentry
    exact hst
  · exact hr p entry (h.otherPods p hp ▸ hentry)

theorem fromReports_entryOf (hpod : .addPod pod ∈ ops)
    (hr : ∀ p entry, r.podCache.lookup p = some entry → FromReports ops p entry) :
    FromReports ops pod.podMeta.id (r.entryOf pod) := by
  unfold Resolver.entryOf
  cases hl : r.podCache.lookup pod.podMeta.id with
  | some entry => exact hr _ entry hl
  | none => exact ⟨⟨pod, hpod, rfl, rfl⟩, fun cid c hc => absurd hc (by simp [convertPodData])⟩

theorem addPod_cache (hpod : .addPod pod ∈ ops)
    (hr : ∀ p entry, r.podCache.lookup p = some entry → FromReports ops p entry) :
    ∀ p entry, ((Op.addPod pod).step env r).podCache.lookup p = some entry →
      FromReports ops p entry := by
  have h₀ := fromReports_entryOf hpod hr
  refine Ends.after (P := fun r' : Resolver => ∀ p entry, r'.podCache.lookup p = some entry →
    FromReports ops p entry) ?_
  unfold Op.exec addPodContainerFromNri
  refine Ends.bind (ends_ok.mpr (Ends.bind ((addContainers_ends (starts_getD r pod)).mono ?_ ?_)))
  · intro st r₁ hadd
    have hst := hadd.fromReports hpod h₀
    refine Ends.bind (ends_ok.mpr (Ends.bind (ends_ok.mpr (Ends.zoom ?_))))
    have hput : ∀ (w : World) p entry,
        (r₁.putPod pod.podMeta.id st w).podCache.lookup p = some entry →
          FromReports ops p entry := by
      intro w p entry hentry
      unfold Resolver.putPod at hentry
      rw [GoMap.lookup_insert_eq] at hentry
      split at hentry
      · next hp => exact hp ▸ Option.some.inj hentry ▸ hst
      · exact hadd.cache hr hst p entry hentry
    exact (Ends.self _).mono (fun _ w _ => hput w) (fun _ w _ => hput w)
  · rintro _ r₁ ⟨_, V, st, hadd⟩
    exact hadd.cache hr (hadd.fromReports hpod h₀)

theorem removePod_cache {podID : PodID} {cid : ContainerID}
    (hr : ∀ p entry, r.podCache.lookup p = some entry → FromReports ops p entry) :
    ∀ p entry, ((Op.removePod podID cid).step env r).podCache.lookup p = some entry →
      FromReports ops p entry := by
  refine Ends.after (P := fun r' : Resolver => ∀ p entry, r'.podCache.lookup p = some entry →
    FromReports ops p entry) ?_
  unfold Op.exec removePodContainerFromNri
  refine Ends.bind (ends_ok.mpr ?_)
  cases hstate : r.podCache.lookup podID with
  | none => exact ends_ok.mpr hr
  | some state =>
    cases hcid : state.containers.lookup cid with
    | none =>
      simp only [hcid]
      exact ends_ok.mpr hr
    | some container =>
      simp only [hcid]
      have hdrop : ∀ (w : World) p entry,
          (r.dropContainer podID cid state container.cgroupID w).podCache.lookup p = some entry →
            FromReports ops p entry := by
        intro w p entry hentry
        unfold Resolver.dropContainer at hentry
        simp only at hentry
        split at hentry
        · rw [GoMap.lookup_erase_eq] at hentry
          split at hentry
          · exact absurd hentry (by simp)
          · exact hr p entry hentry
        · rw [GoMap.lookup_insert_eq] at hentry
          split at hentry
          · next hp =>
            obtain rfl := Option.some.inj hentry
            have hf := hr podID state hstate
            refine hp ▸ ⟨hf.pod, fun cid' c hc => hf.containers cid' c ?_⟩
            rw [GoMap.lookup_erase_eq] at hc
            split at hc
            · exact absurd hc (by simp)
            · exact hc
          · exact hr p entry hentry
      refine Ends.bind (ends_ok.mpr (Ends.zoom ?_))
      exact (Ends.self _).mono (fun _ w _ => hdrop w) (fun _ w _ => hdrop w)

theorem Audited.addPod (hpods : PodsAgree ops) (h : Audited ops a) (hpod : .addPod pod ∈ ops) :
    Audited ops (a.step env (.addPod pod)) := by
  have hlog : (a.step env (.addPod pod)).log = a.log := List.append_nil _
  have hstep : PodStep _ a.resolver ((Op.addPod pod).step env a.resolver) := step_addPod
  have haud := h.pods (h.ids.step _) hstep ?_ (addPod_cache hpod h.cache)
  · unfold Audit.step
    rw [show a.log ++ (Op.addPod pod).grants env a.resolver = a.log from hlog]
    exact haud
  · -- the container is one of the pod's, and the label is that of its first report
    rintro ⟨cg, id⟩ ⟨c, hc, rfl, hid⟩
    refine ⟨_, c.name, h.pol _ _ _ hid, ?_⟩
    have hentry := fromReports_entryOf (r := a.resolver) hpod h.cache
    obtain ⟨x, hx, hxid, hxm⟩ := hentry.pod
    rcases hc with ⟨pm, cid, entry, hlook, rfl, hcid⟩ | ⟨cid, ci, hci, rfl⟩
    · have hsame : a.resolver.entryOf pod = entry := by
        unfold Resolver.entryOf
        rw [hlook, Option.getD_some]
      rw [hsame]
      exact (h.cache _ entry hlook).reported hpods hcid
    · refine ⟨pod, cid, ci, hpod, ?_, hci, rfl, rfl⟩
      rw [hxm]
      exact hpods.policyKey hpod hx hxid.symm

theorem Audited.removePod (h : Audited ops a) (podID : PodID) (cid : ContainerID) :
    Audited ops (a.step env (.removePod podID cid)) := by
  have hstep : PodStep ∅ a.resolver ((Op.removePod podID cid).step env a.resolver) :=
    step_removePod
  have haud := h.pods (h.ids.step _) hstep (fun _ hx => hx.elim) (removePod_cache h.cache)
  unfold Audit.step
  rw [show a.log ++ (Op.removePod podID cid).grants env a.resolver = a.log from List.append_nil _]
  exact haud

/-- **Every operation keeps the account**, whatever fails. -/
theorem Audited.step (hpods : PodsAgree ops) (h : Audited ops a) {op : Op} (hop : op ∈ ops) :
    Audited ops (a.step env op) := by
  cases op with
  | reconcile wp => exact h.reconcile hpods hop
  | delete o => exact h.delete o
  | addPod pod => exact h.addPod hpods hop
  | removePod podID cid => exact h.removePod podID cid

theorem Audited.init : Audited ops {} where
  ids := Ids.init
  log := rfl
  next := rfl
  pol k n id hid := absurd hid (by simp [Resolver.pol])
  maps m hm := by
    obtain rfl : m = BpfMaps.empty := by simpa [World.history] using hm
    refine ⟨?_, fun k n id hg => absurd hg (by simp), fun cg id hb => absurd hb ?_⟩
    · rintro id (⟨i, hi⟩ | hs)
      · exact absurd hi (by simp [BpfMaps.empty])
      · exact absurd hs (by simp [BpfMaps.empty])
    · simp [BpfMaps.empty]
  cache p entry hentry := absurd hentry (by simp)

theorem audited_run (hpods : PodsAgree ops) {is : List Op} (his : ∀ op ∈ is, op ∈ ops) :
    Audited ops (run (Audit.step env) is {}) :=
  run_inv (fun _ _ h hop => h.step hpods hop) Audited.init (along_of_forall his)

/-! ## How many ids there are

The counter of the source is a `uint64` and starts again at 0 when it overflows. Ids are given out
one after the other, at most one for each container of each spec that is reconciled, so this takes
as many reconciles of new containers as there are ids. -/

/-- The containers of all the specs that are reconciled. -/
def specContainers : List Op → Nat
  | [] => 0
  | .reconcile wp :: ops => wp.rulesByContainer.entries.length + specContainers ops
  | _ :: ops => specContainers ops

theorem length_syncLog_le (wp : WorkloadPolicy)
    (es : List (Entry ContainerName WorkloadPolicyRules))
    (new : PolicyByContainer) (s : PolicyScope) : (syncLog env wp es new s).length ≤ es.length := by
  induction es generalizing new s with
  | nil => exact Nat.le_refl 0
  | cons e es ih =>
    have hgrant : (s.grant e.1).length ≤ 1 := by
      unfold PolicyScope.grant
      split <;> simp
    rw [syncLog, List.length_append, List.length_cons]
    cases syncContainer env wp new e s with
    | ok new' s' =>
      have hrest := ih new' s'
      simp only
      omega
    | error e' s' =>
      simp only [List.length_nil]
      omega

theorem length_log_le (is : List Op) (a : Audit) :
    (run (Audit.step env) is a).log.length ≤ a.log.length + specContainers is := by
  induction is generalizing a with
  | nil => exact Nat.le_refl _
  | cons op is ih =>
    refine Nat.le_trans (ih (Audit.step env op a)) ?_
    have hstep : (Audit.step env op a).log.length
        = a.log.length + (op.grants env a.resolver).length := List.length_append
    rw [hstep]
    cases op with
    | reconcile wp =>
      have hsync : (syncLog env wp (env.rules.range
          (a.resolver.scope wp.namespacedName).world.clock wp.rulesByContainer) ∅
          (a.resolver.scope wp.namespacedName)).length ≤ _ := length_syncLog_le wp _ _ _
      have hrange : (env.rules.range (a.resolver.scope wp.namespacedName).world.clock
          wp.rulesByContainer).length = wp.rulesByContainer.entries.length :=
        (env.rules.perm _ _).length_eq
      simp only [Op.grants, WorkloadPolicy.grants, List.length_map, specContainers]
      omega
    | _ => simp [Op.grants, specContainers]

/-- **The counter does not overflow** before 2^64 containers have been reconciled: up to then, every
id that is given out or stored is one of the source. -/
theorem nextPolicyID_lt (hpods : PodsAgree ops) (hfew : specContainers ops + 1 < 2 ^ 64) :
    (run (Audit.step env) ops {}).resolver.nextPolicyID < 2 ^ 64 := by
  have haudited : Audited ops (run (Audit.step env) ops {}) := audited_run hpods fun _ h => h
  have hlog : (run (Audit.step env) ops {}).log.length ≤ 0 + specContainers ops :=
    length_log_le ops {}
  have hle : 1 + (run (Audit.step env) ops {}).log.length ≤ specContainers ops + 1 := by omega
  calc (run (Audit.step env) ops {}).resolver.nextPolicyID
      = 1 + (run (Audit.step env) ops {}).log.length := haudited.next
    _ ≤ specContainers ops + 1 := hle
    _ < 2 ^ 64 := hfew

end

/-- **No cgroup is judged by another policy's rules.** In every run: no id is given out twice, the
id 0 is bound at no moment, and if at some moment a cgroup is bound to an id that is, at some
moment, the cgroup of a cached container, then the id was given out for this container under its
pod's policy and whatever is stored under it at any moment comes from this container's rules. -/
theorem bound_to_own_rules (env : Env) (pre post : List Op)
    (hinv : Inventory ((pre ++ post).flatMap Op.reports)) (hpods : PodsAgree (pre ++ post)) :
    ((run (Audit.step env) (pre ++ post) {}).log.map Grant.id).Nodup ∧
    ∀ m ∈ (run (Audit.step env) (pre ++ post) {}).resolver.world.history,
      (∀ cg, m.cgToPolicy.lookup cg ≠ some 0) ∧
      ∀ p pm cid c, (run (Audit.step env) pre {}).resolver.Cached p pm cid c →
        ∀ id, m.cgToPolicy.lookup c.cgroupID = some id →
          ⟨pm.policyKey, c.name, id⟩ ∈ (run (Audit.step env) (pre ++ post) {}).log ∧
          ∀ m' ∈ (run (Audit.step env) (pre ++ post) {}).resolver.world.history,
            FromRules (pre ++ post) pm.policyKey c.name m' id := by
  have hpre : Audited (pre ++ post) (run (Audit.step env) pre {}) :=
    audited_run hpods fun op hop => List.mem_append_left post hop
  have hall : Audited (pre ++ post) (run (Audit.step env) (pre ++ post) {}) :=
    audited_run hpods fun _ hop => hop
  refine ⟨hall.log ▸ List.nodup_range', fun m hm => ⟨fun cg hcg => ?_, ?_⟩⟩
  · obtain ⟨k, n, hg, _⟩ := (hall.maps m hm).bound cg 0 hcg
    have hmem : 0 ∈ (run (Audit.step env) (pre ++ post) {}).log.map Grant.id :=
      List.mem_map.mpr ⟨_, hg, rfl⟩
    rw [hall.log, List.mem_range'_1] at hmem
    omega
  · rintro p pm cid c ⟨entry, hentry, rfl, hcid⟩ id hid
    obtain ⟨k, n, hg, x, cid₁, ci, hx, hkey, hci, rfl, hcg⟩ := (hall.maps m hm).bound _ id hid
    obtain ⟨x₀, hx₀, hx₀id, hx₀m⟩ := (hpre.cache p entry hentry).pod
    obtain ⟨y, ci', hy, hyid, hci', rfl⟩ := (hpre.cache p entry hentry).containers cid c hcid
    -- one cgroup, one container
    have heq := (hinv _ (List.mem_flatMap.mpr ⟨_, hx, mem_reports hci⟩) _
      (List.mem_flatMap.mpr ⟨_, hy, mem_reports hci'⟩)).2 hcg
    simp only [Report.mk.injEq] at heq
    obtain ⟨hpod, _, hname, _⟩ := heq
    have hown : (⟨entry.podMeta.policyKey, ci'.name, id⟩ : Grant)
        ∈ (run (Audit.step env) (pre ++ post) {}).log := by
      rw [hx₀m, ← hpods.policyKey hx hx₀ (hpod.trans (hyid.trans hx₀id.symm)), hkey, ← hname]
      exact hg
    exact ⟨hown, fun m' hm' => (hall.maps m' hm').rules _ _ _ hown⟩

namespace Sample

def shBound : List Op :=
  [.reconcile (webApp .protect ["/bin/sh".toUTF8.toList]), .addPod (pod "a" "c1" 7)]

/-- The policy is deleted, which fails, and is created again with another list. -/
def anew : List Op := [.delete web, .reconcile (webApp .protect ["/bin/ls".toUTF8.toList])]

theorem podsAgree_anew : PodsAgree (shBound ++ anew) := by
  have hone : ∀ a, .addPod a ∈ shBound ++ anew → a = pod "a" "c1" 7 := by
    intro a ha
    simpa [shBound, anew] using ha
  intro a b ha hb _
  rw [hone a ha, hone b hb]
  exact ⟨rfl, rfl⟩

/-- The container is left bound to the id of the deleted policy, with its old list. -/
theorem bound_to_own_rules_anew :
    (run (Audit.step (.failsAt 6)) (shBound ++ anew) {}).resolver.bound 7 = some 1 ∧
      ⟨"default/web", "app", 1⟩ ∈ (run (Audit.step (.failsAt 6)) (shBound ++ anew) {}).log ∧
      ∀ m' ∈ (run (Audit.step (.failsAt 6)) (shBound ++ anew) {}).resolver.world.history,
        FromRules (shBound ++ anew) "default/web" "app" m' 1 := by
  have hshows : (run (Audit.step (.failsAt 6)) shBound {}).resolver.shows "a" "c1"
      = some ("default/web", ⟨"app", 7⟩) := by decide +kernel
  have hbound : (run (Audit.step (.failsAt 6)) (shBound ++ anew) {}).resolver.bound 7
      = some 1 := by decide +kernel
  obtain ⟨pm, hcached, hkey⟩ := Resolver.cached_of_shows hshows
  have h := (bound_to_own_rules (.failsAt 6) shBound anew (by decide) podsAgree_anew).2 _
    (mem_history _)
  have hown := h.2 "a" pm "c1" ⟨"app", 7⟩ hcached 1 hbound
  rw [hkey] at hown
  exact ⟨hbound, hown⟩

end Sample

end RuntimeEnforcer
