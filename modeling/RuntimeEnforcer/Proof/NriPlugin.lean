import RuntimeEnforcer.Agent.NriPlugin
import RuntimeEnforcer.Proof.Enforced
import RuntimeEnforcer.Proof.Provenance

/-!
# No container runs unwatched

What the agent knows of the containers of its node comes from the plugin alone. The runtime starts
containers while no plugin is there, calls fail half way through a synchronisation, and policies
come and go between two pods of it. When a synchronisation is over, and from then on until the
connection is lost, every container that runs is in the cache, but for those that were started
anyway because the plugin fails open.

The resolver of a runtime is the resolver of the calls it was asked (`Watched.trace`), so what is
known of every run of a resolver is known here.
-/

set_option autoImplicit false

namespace RuntimeEnforcer.Nri

open Lib

/-! ## What a report leaves in the cache -/

section

variable {env : Env} {pod : PodInput} {r₀ r : Resolver} {st₀ st : PodEntry} {V : Set ContainerID}

theorem cached_putPod_of_cached (h : Adding r₀ pod st₀ V st r) (hk : Starts r₀ pod st₀) (w : World)
    {p : PodID} {pm : PodMeta} {cid : ContainerID} {c : ContainerMeta}
    (hc : r₀.Cached p pm cid c) : (r.putPod pod.podMeta.id st w).Cached p pm cid c := by
  rw [Resolver.cached_putPod]
  split
  · next hp =>
    obtain ⟨entry, hentry, hpm, hcid⟩ := hc
    rw [hp] at hentry
    rcases hk with ⟨hk, _⟩ | hk
    · exact absurd hentry (by simp [hk])
    · obtain rfl : st₀ = entry := Option.some.inj (hk.symm.trans hentry)
      exact ⟨h.podMeta.trans hpm, h.grows cid c hcid⟩
  · exact h.cachedKeeps hk hc

/-- However it ends, a report takes nothing out of the cache; one that returns has put in all of its
containers. -/
theorem addPodContainerFromNri_caches (env : Env) (pod : PodInput) (r₀ : Resolver) :
    Ends (addPodContainerFromNri env pod r₀)
      (fun _ r => (∀ p pm cid c, r₀.Cached p pm cid c → r.Cached p pm cid c) ∧
        ∀ cid ci, pod.containers.lookup cid = some ci →
          ∃ pm, r.Cached pod.podMeta.id pm cid ci.toContainerMeta)
      (fun _ r => ∀ p pm cid c, r₀.Cached p pm cid c → r.Cached p pm cid c) := by
  have hk := starts_getD r₀ pod
  unfold addPodContainerFromNri
  refine Ends.bind (ends_ok.mpr (Ends.bind ((addContainers_ends hk).mono ?_ ?_)))
  · intro st r hadd
    refine Ends.bind (ends_ok.mpr (Ends.bind (ends_ok.mpr (Ends.zoom ?_))))
    have hkeep : ∀ w p pm cid c, r₀.Cached p pm cid c →
        (r.putPod pod.podMeta.id st w).Cached p pm cid c :=
      fun w _ _ _ _ hc => cached_putPod_of_cached hadd hk w hc
    refine (Ends.self _).mono (fun _ w _ => ⟨hkeep w, fun cid ci hci => ⟨st.podMeta, ?_⟩⟩)
      fun _ w _ => hkeep w
    have hin : cid ∈ {cid | (pod.containers.lookup cid).isSome} := by simp [hci]
    have hc : (r.putPod pod.podMeta.id st w).Cached pod.podMeta.id st.podMeta cid
        ci.toContainerMeta := by
      rw [Resolver.cached_putPod, if_pos rfl]
      exact ⟨rfl, hadd.done cid hin ci hci⟩
    exact hc
  · rintro _ r ⟨_, V, st, hadd⟩ p pm cid c hc
    exact hadd.cachedKeeps hk hc

end

/-! ## The two loops of `Synchronize` -/

variable {failing : Failing} {c : Container} {pods : List (Option PodSandbox)}

/-- What the first loop stores of a container. -/
def Container.input (c : Container) : ContainerInput :=
  { name := c.name, cgroupID := c.cgroupID, cgroupPath := c.cgroupPath }

/-- The container is in the group of its sandbox. -/
def Grouped (tmpSandboxes : Sandboxes) (c : Container) : Prop :=
  ∃ containers, tmpSandboxes.lookup c.podSandboxID = some containers ∧
    containers.lookup c.id = some c.input

theorem groupContainer_ok {tmp tmp' : Sandboxes} (h : groupContainer failing tmp c = .ok tmp') :
    Grouped tmp' c ∧ ∀ c', (c'.id = c.id → c' = c) → Grouped tmp c' → Grouped tmp' c' := by
  unfold groupContainer resolveCgroupID at h
  cases hf : failing c.id with
  | some err => simp [hf] at h
  | none =>
    simp only [hf, Except.ok.injEq] at h
    subst h
    refine ⟨⟨_, AList.lookup_insert _, AList.lookup_insert _⟩, fun c' hsame hc' => ?_⟩
    obtain ⟨containers, hsandbox, hid⟩ := hc'
    by_cases hc : c' = c
    · subst hc
      exact ⟨_, AList.lookup_insert _, AList.lookup_insert _⟩
    · have hne : c'.id ≠ c.id := fun heq => hc (hsame heq)
      unfold Grouped
      rw [GoMap.lookup_insert_eq]
      split
      · next hsb =>
        refine ⟨_, rfl, ?_⟩
        rw [GoMap.lookup_insert_eq, if_neg hne, ← hsb, hsandbox, Option.getD_some]
        exact hid
      · exact ⟨containers, hsandbox, hid⟩

theorem foldlM_groupContainer {all : List Container}
    (hids : ∀ c ∈ all, ∀ c' ∈ all, c'.id = c.id → c' = c) {l : List Container}
    (hl : ∀ c ∈ l, c ∈ all) {tmp tmp' : Sandboxes}
    (h : l.foldlM (groupContainer failing) tmp = .ok tmp') :
    (∀ c ∈ all, Grouped tmp c → Grouped tmp' c) ∧ ∀ c ∈ l, Grouped tmp' c := by
  induction l generalizing tmp with
  | nil =>
    obtain rfl := Except.ok.inj h
    exact ⟨fun _ _ hc => hc, fun c hc => absurd hc (by simp)⟩
  | cons c l ih =>
    rw [List.foldlM_cons] at h
    cases hc : groupContainer failing tmp c with
    | error err => simp [hc, bind, Except.bind] at h
    | ok tmp₁ =>
      simp only [hc, bind, Except.bind] at h
      obtain ⟨hnew, hkeep⟩ := groupContainer_ok hc
      have hcall := hl c List.mem_cons_self
      obtain ⟨hall, hrest⟩ := ih (fun c' hc' => hl c' (List.mem_cons_of_mem c hc')) h
      refine ⟨fun c' hc' hg => hall c' hc' (hkeep c' (hids c hcall c' hc') hg), fun c' hc' => ?_⟩
      rcases List.mem_cons.mp hc' with rfl | hc'
      · exact hall c' hcall hnew
      · exact hrest c' hc'

/-- The report is one of the pod's and has the container. -/
structure Covers (input : PodInput) (x : PodSandbox × Container) : Prop where
  podMeta : input.podMeta = podSandboxToPodMeta x.1
  container : ∃ ci, input.containers.lookup x.2.id = some ci ∧
    ci.toContainerMeta = x.2.containerMeta

/-- What the runtime hands over: all that runs, each container in its own sandbox, and each id
once. -/
structure Lists (running : List (PodSandbox × Container)) (pods : List (Option PodSandbox))
    (containers : List Container) : Prop where
  ids : ∀ c ∈ containers, ∀ c' ∈ containers, c'.id = c.id → c' = c
  pods : ∀ x ∈ running, some x.1 ∈ pods
  containers : ∀ x ∈ running, x.2 ∈ containers ∧ x.2.podSandboxID = x.1.id

theorem synchronize_covers {running : List (PodSandbox × Container)} {containers : List Container}
    {inputs : List PodInput} (hlists : Lists running pods containers)
    (h : synchronize failing pods containers = .ok inputs) :
    ∀ x ∈ running, ∃ input ∈ inputs, Covers input x := by
  unfold synchronize at h
  cases htmp : containers.foldlM (groupContainer failing) ∅ with
  | error err => simp [htmp] at h
  | ok tmp =>
    simp only [htmp, Except.ok.injEq] at h
    subst h
    intro x hx
    obtain ⟨hc, hsandbox⟩ := hlists.containers x hx
    obtain ⟨group, hgroup, hid⟩ :=
      (foldlM_groupContainer hlists.ids (fun _ hc => hc) htmp).2 x.2 hc
    refine ⟨⟨podSandboxToPodMeta x.1, group⟩,
      List.mem_filterMap.mpr ⟨some x.1, hlists.pods x hx, ?_⟩, rfl, x.2.input, hid, rfl⟩
    unfold podData
    rw [Option.bind_some, ← hsandbox, hgroup]
    rfl

/-! ## The invariant -/

/-- The runtime tells the plugin the truth. -/
def RuntimeOp.Truthful (s : Runtime) : RuntimeOp → Prop
  | .connect _ pods containers => Lists s.running pods containers
  | _ => True

/-- The container is cached, and its pod was reported. -/
structure Known (s : Runtime) (x : PodSandbox × Container) : Prop where
  cached : ∃ pm, s.resolver.Cached x.1.uid pm x.2.id x.2.containerMeta
  reported : ∃ input, .addPod input ∈ s.trace ∧ input.podMeta = podSandboxToPodMeta x.1

structure Watched (env : Env) (failOpen : Bool) (s : Runtime) : Prop where
  trace : s.resolver = run (Op.step env) s.trace {}
  ready : s.stage = .ready → ∀ x ∈ s.running, x ∈ s.unenforced ∨ Known s x
  syncing : ∀ rest, s.stage = .syncing rest → ∀ x ∈ s.running,
    Known s x ∨ ∃ input ∈ rest, Covers input x
  failClosed : failOpen = false → s.unenforced = []
  synchronized : s.stage = .ready → s.synchronized = true

section

variable {pod : PodSandbox}

variable {env : Env} {failOpen : Bool} {s s' : Runtime} {x : PodSandbox × Container}

theorem run_ask (h : s.resolver = run (Op.step env) s.trace {}) (op : Op) :
    (s.ask env op).resolver = run (Op.step env) (s.ask env op).trace {} := by
  unfold Runtime.ask
  rw [run_append, ← h]
  rfl

theorem Known.mono (h : Known s x)
    (hcache : ∀ p pm cid c, s.resolver.Cached p pm cid c → s'.resolver.Cached p pm cid c)
    (htrace : ∀ op ∈ s.trace, op ∈ s'.trace) : Known s' x := by
  obtain ⟨⟨pm, hc⟩, input, hin, hmeta⟩ := h
  exact ⟨⟨pm, hcache _ _ _ _ hc⟩, input, htrace _ hin, hmeta⟩

theorem addPod_keeps (input : PodInput) (r : Resolver) :
    ∀ p pm cid c, r.Cached p pm cid c → ((Op.addPod input).step env r).Cached p pm cid c :=
  Ends.after ((addPodContainerFromNri_caches env input r).mono (fun _ _ h => h.1) fun _ _ h => h)

theorem known_of_added {input : PodInput} {r : Resolver}
    (hok : addPodContainerFromNri env input s.resolver = .ok () r) (hcov : Covers input x) :
    Known (s.ask env (.addPod input)) x := by
  obtain ⟨ci, hci, hmeta⟩ := hcov.container
  obtain ⟨_, hall⟩ := (addPodContainerFromNri_caches env input s.resolver).of_ok hok
  obtain ⟨pm, hc⟩ := hall _ ci hci
  refine ⟨⟨pm, ?_⟩, input, List.mem_append_right _ (List.mem_singleton_self _), hcov.podMeta⟩
  have hres : (s.ask env (.addPod input)).resolver = r := by
    show after (addPodContainerFromNri env input s.resolver) = r
    rw [hok]
    rfl
  rw [hres, ← hmeta]
  have huid : input.podMeta.id = x.1.uid := congrArg PodMeta.id hcov.podMeta
  exact huid ▸ hc

theorem covers_startInput (pod : PodSandbox) (c : Container) :
    Covers (startInput pod c) (pod, c) :=
  ⟨rfl, _, AList.lookup_insert _, rfl⟩

theorem Watched.offline (hstage : s.stage = .disconnected)
    (htrace : s.resolver = run (Op.step env) s.trace {})
    (hclosed : failOpen = false → s.unenforced = []) : Watched env failOpen s where
  trace := htrace
  ready hs := absurd (hs.symm.trans hstage) (by simp)
  syncing rest hs := absurd (hs.symm.trans hstage) (by simp)
  failClosed := hclosed
  synchronized hs := absurd (hs.symm.trans hstage) (by simp)

theorem Watched.policy (h : Watched env failOpen s) {op : Op}
    (hcache : (op.step env s.resolver).podCache = s.resolver.podCache) :
    Watched env failOpen (s.ask env op) := by
  have hkeep : ∀ x, Known s x → Known (s.ask env op) x := fun x hx => by
    refine hx.mono (fun p pm cid c hc => ?_) fun _ ho => List.mem_append_left _ ho
    obtain ⟨entry, hentry, hrest⟩ := hc
    exact ⟨entry, hcache ▸ hentry, hrest⟩
  exact {
    trace := run_ask h.trace op
    ready := fun hs x hx => (h.ready hs x hx).imp id (hkeep x)
    syncing := fun rest hs x hx => (h.syncing rest hs x hx).imp (hkeep x) id
    failClosed := h.failClosed
    synchronized := h.synchronized }

theorem Watched.connect (h : Watched env failOpen s) {containers : List Container}
    (hlists : Lists s.running pods containers) :
    Watched env failOpen (s.connect failing pods containers) := by
  unfold Runtime.connect
  cases hstage : s.stage with
  | syncing rest => exact h
  | ready => exact h
  | disconnected =>
    cases hsync : synchronize failing pods containers with
    | error err => exact h
    | ok inputs =>
      exact {
        trace := h.trace
        ready := fun hs => absurd hs (by simp)
        syncing := fun rest hs x hx => by
          obtain rfl : inputs = rest := Stage.syncing.inj hs
          exact .inr (synchronize_covers hlists hsync x hx)
        failClosed := h.failClosed
        synchronized := fun hs => absurd hs (by simp) }

theorem Watched.syncPod (h : Watched env failOpen s) : Watched env failOpen (s.syncPod env) := by
  unfold Runtime.syncPod
  cases hstage : s.stage with
  | disconnected => exact h
  | ready => exact h
  | syncing rest =>
    cases rest with
    | nil =>
      -- everything that was to be added has been
      exact {
        trace := h.trace
        ready := fun _ x hx => by
          rcases h.syncing [] hstage x hx with hk | ⟨input, hin, _⟩
          · exact .inr ⟨hk.cached, hk.reported⟩
          · exact absurd hin (by simp)
        syncing := fun rest hs => absurd hs (by simp)
        failClosed := fun _ => rfl
        synchronized := fun _ => rfl }
    | cons input rest =>
      simp only
      cases hadd : addPodContainerFromNri env input s.resolver with
      | error e r => exact .offline rfl (run_ask h.trace (.addPod input)) h.failClosed
      | ok u r =>
        exact {
          trace := run_ask h.trace (.addPod input)
          ready := fun hs => absurd hs (by simp)
          syncing := fun rest' hs x hx => by
            obtain rfl : rest = rest' := Stage.syncing.inj hs
            rcases h.syncing _ hstage x hx with hk | ⟨input', hin, hcov⟩
            · exact .inl (hk.mono (addPod_keeps input s.resolver)
                fun _ ho => List.mem_append_left _ ho)
            · rcases List.mem_cons.mp hin with rfl | hin
              · have hk := known_of_added hadd hcov
                exact .inl ⟨hk.cached, hk.reported⟩
              · exact .inr ⟨input', hin, hcov⟩
          failClosed := h.failClosed
          synchronized := fun hs => absurd hs (by simp) }

theorem handleError_ne_enforced (reason : String) : handleError failOpen reason ≠ .enforced := by
  unfold handleError
  split <;> simp

theorem startContainer_failClosed (hf : failOpen = false) {r : Resolver} (reason : String) :
    (startContainer env failOpen failing pod c r).1 ≠ .unenforced reason := by
  subst hf
  unfold startContainer
  repeat' split
  all_goals simp [handleError]

theorem startContainer_cases (env : Env) (failOpen : Bool) (failing : Failing) (pod : PodSandbox)
    (c : Container) (r : Resolver) :
    (failing c.id ≠ none ∧ (startContainer env failOpen failing pod c r).2 = r ∧
      (startContainer env failOpen failing pod c r).1 ≠ .enforced) ∨
    failing c.id = none ∧ (startContainer env failOpen failing pod c r).2
        = (Op.addPod (startInput pod c)).step env r ∧
      ((startContainer env failOpen failing pod c r).1 = .enforced →
        ∃ r', addPodContainerFromNri env (startInput pod c) r = .ok () r') := by
  unfold startContainer resolveCgroupID Op.step Op.exec
  cases hf : failing c.id with
  | some err => exact .inl ⟨by simp, rfl, handleError_ne_enforced _⟩
  | none =>
    simp only
    cases hadd : addPodContainerFromNri env (startInput pod c) r with
    | ok u r' => exact .inr ⟨trivial, rfl, fun _ => ⟨r', rfl⟩⟩
    | error e r' => exact .inr ⟨trivial, rfl, fun henf => absurd henf (handleError_ne_enforced _)⟩

theorem Watched.askStart (h : Watched env failOpen s) (failing : Failing) (pod : PodSandbox)
    (c : Container) :
    Watched env failOpen (s.askStart env failOpen failing pod c) ∧
      ((startContainer env failOpen failing pod c s.resolver).1 = .enforced →
        Known (s.askStart env failOpen failing pod c) (pod, c)) := by
  have hcall : s.askStart env failOpen failing pod c = s ∧
        (startContainer env failOpen failing pod c s.resolver).1 ≠ .enforced ∨
      s.askStart env failOpen failing pod c = s.ask env (.addPod (startInput pod c)) ∧
        ((startContainer env failOpen failing pod c s.resolver).1 = .enforced →
          ∃ r, addPodContainerFromNri env (startInput pod c) s.resolver = .ok () r) := by
    unfold Runtime.askStart
    rcases startContainer_cases env failOpen failing pod c s.resolver with
      ⟨hfail, hres, hans⟩ | ⟨hfail, hres, hans⟩
    · rw [if_neg hfail, List.append_nil, hres]
      exact .inl ⟨rfl, hans⟩
    · rw [if_pos hfail, hres]
      exact .inr ⟨rfl, hans⟩
  rcases hcall with ⟨heq, hans⟩ | ⟨heq, hans⟩
  · rw [heq]
    exact ⟨h, fun henf => absurd henf hans⟩
  · rw [heq]
    have hkeep : ∀ x, Known s x → Known (s.ask env (.addPod (startInput pod c))) x := fun x hx =>
      hx.mono (addPod_keeps _ s.resolver) fun _ ho => List.mem_append_left _ ho
    refine ⟨⟨run_ask h.trace _, fun hs x hx => (h.ready hs x hx).imp id (hkeep x),
      fun rest hs x hx => (h.syncing rest hs x hx).imp (hkeep x) id, h.failClosed, h.synchronized⟩,
      fun henf => ?_⟩
    obtain ⟨r, hok⟩ := hans henf
    exact known_of_added hok (covers_startInput pod c)

theorem Watched.goOn (h : Watched env failOpen s) (hstage : s.stage = .ready) {answer : Started}
    (hopen : ∀ reason, answer = .unenforced reason → failOpen = true)
    (hknown : answer = .enforced → Known s (pod, c)) :
    Watched env failOpen (s.goOn answer pod c) := by
  cases answer with
  | prevented reason => exact h
  | enforced =>
    exact {
      trace := h.trace
      ready := fun _ x hx => by
        rcases List.mem_append.mp hx with hx | hx
        · exact (h.ready hstage x hx).imp id fun hk => ⟨hk.cached, hk.reported⟩
        · obtain rfl := List.mem_singleton.mp hx
          exact .inr ⟨(hknown rfl).cached, (hknown rfl).reported⟩
      syncing := fun rest hs => absurd (hs.symm.trans hstage) (by simp)
      failClosed := h.failClosed
      synchronized := h.synchronized }
  | unenforced reason =>
    exact {
      trace := h.trace
      ready := fun _ x hx => by
        rcases List.mem_append.mp hx with hx | hx
        · exact (h.ready hstage x hx).imp (List.mem_append_left _)
            fun hk => ⟨hk.cached, hk.reported⟩
        · exact .inl (List.mem_append_right _ hx)
      syncing := fun rest hs => absurd (hs.symm.trans hstage) (by simp)
      failClosed := fun hf => absurd (hf.symm.trans (hopen reason rfl)) (by simp)
      synchronized := h.synchronized }

theorem Watched.start (h : Watched env failOpen s) (failing : Failing) (pod : PodSandbox)
    (c : Container) : Watched env failOpen (s.start env failOpen failing pod c) := by
  cases hstage : s.stage with
  | ready =>
    unfold Runtime.start
    simp only [hstage]
    obtain ⟨hasked, hknown⟩ := h.askStart failing pod c
    refine hasked.goOn hstage (fun reason hun => ?_) hknown
    cases hf : failOpen with
    | true => rfl
    | false => exact absurd hun (startContainer_failClosed hf reason)
  | syncing rest =>
    unfold Runtime.start
    simp only [hstage]
    exact h
  | disconnected =>
    unfold Runtime.start
    simp only [hstage]
    exact .offline rfl h.trace h.failClosed

theorem known_remove (env : Env) (h : Known s x) (hne : ¬ (x.1.uid = pod.uid ∧ x.2.id = c.id)) :
    Known (s.ask env (.removePod pod.uid c.id)) x := by
  obtain ⟨⟨pm, hc⟩, input, hin, hmeta⟩ := h
  have heff : RemoveEffect s.resolver pod.uid c.id
      ((Op.removePod pod.uid c.id).step env s.resolver) :=
    Ends.after (removePodContainerFromNri_ends.mono (fun _ _ h => h.1) fun _ _ h => h.1)
  exact ⟨⟨pm, heff.cachedKeeps _ _ _ _ hc hne⟩, input, List.mem_append_left _ hin, hmeta⟩

theorem Watched.remove (h : Watched env failOpen s) (pod : PodSandbox) (c : Container) :
    Watched env failOpen (s.remove env pod c) := by
  unfold Runtime.remove
  cases hstage : s.stage with
  | syncing rest => exact h
  | disconnected => exact .offline rfl h.trace h.failClosed
  | ready =>
    exact {
      trace := run_ask h.trace _
      ready := fun _ x hx => by
        obtain ⟨hx, hne⟩ := List.mem_filter.mp hx
        have hne : ¬ (x.1.uid = pod.uid ∧ x.2.id = c.id) := of_decide_eq_true hne
        rcases h.ready hstage x hx with hu | hk
        · exact .inl hu
        · have hk' := known_remove env hk hne
          exact .inr ⟨hk'.cached, hk'.reported⟩
      syncing := fun rest hs => absurd (hs.symm.trans hstage) (by simp)
      failClosed := h.failClosed
      synchronized := fun _ => h.synchronized hstage }

theorem reconcile_podCache (wp : WorkloadPolicy) (r : Resolver) :
    ((Op.reconcile wp).step env r).podCache = r.podCache := by
  show (after (reconcileWP env wp r)).podCache = r.podCache
  cases hres : reconcileContainers env wp r.podCache (r.scope wp.namespacedName) with
  | ok u s =>
    simp only [reconcileWP, hres]
    rfl
  | error e s =>
    simp only [reconcileWP, hres]
    rfl

theorem Watched.step (h : Watched env failOpen s) {op : RuntimeOp} (hop : op.Truthful s) :
    Watched env failOpen (s.step env failOpen op) := by
  cases op with
  | reconcile wp => exact h.policy (reconcile_podCache wp s.resolver)
  | delete o => exact h.policy (step_delete (o := o)).podCache
  | connect failing pods containers => exact h.connect hop
  | syncPod => exact h.syncPod
  | disconnect => exact .offline rfl h.trace h.failClosed
  | start failing pod c => exact h.start failing pod c
  | remove pod c => exact h.remove pod c

theorem watched_run {ops : List RuntimeOp}
    (hops : Along (Runtime.step env failOpen) RuntimeOp.Truthful ops {}) :
    Watched env failOpen (run (Runtime.step env failOpen) ops {}) :=
  run_inv (fun _ _ h hop => h.step hop) (.offline rfl rfl fun _ => rfl) hops

end

/-- **Every container that runs is known.** In every run of a container runtime and an agent,
whatever fails, however often the connection is lost and whatever happens to policies in between:
while the plugin is connected and synchronised, every container that runs is in the cache under its
pod, with its name and its cgroup, but for those started since by a plugin that fails open. -/
theorem running_known (env : Env) (failOpen : Bool) (ops : List RuntimeOp)
    (hops : Along (Runtime.step env failOpen) RuntimeOp.Truthful ops {}) :
    let s := run (Runtime.step env failOpen) ops {}
    s.stage = .ready → s.synchronized = true ∧
      (failOpen = false → s.unenforced = []) ∧
      ∀ x ∈ s.running, x ∈ s.unenforced ∨
        ∃ pm, s.resolver.Cached x.1.uid pm x.2.id x.2.containerMeta := by
  intro s hstage
  have h : Watched env failOpen s := watched_run hops
  exact ⟨h.synchronized hstage, h.failClosed,
    fun x hx => (h.ready hstage x hx).imp id Known.cached⟩

instance decidableReady (stage : Stage) : Decidable (stage = .ready) :=
  match stage with
  | .ready => .isTrue rfl
  | .disconnected => .isFalse (by simp)
  | .syncing _ => .isFalse (by simp)

namespace Sample

open RuntimeEnforcer.Sample

def sandbox : PodSandbox where
  id := "s1"
  uid := "a"
  name := "a"
  ns := ns
  labels := (∅ : GoMap _ _).insert policyLabelKey "web"

def app : Container := ⟨"c1", "s1", "app", 7, ""⟩

def early : List RuntimeOp :=
  [.start (fun _ => none) sandbox app,
   .connect (fun _ => some "no such file or directory") [some sandbox] [app],
   .reconcile (webApp .protect ["/bin/sh".toUTF8.toList]),
   .connect (fun _ => none) [none, some sandbox] [app], .syncPod, .syncPod]

theorem lists_app (h : some sandbox ∈ pods) : Lists [(sandbox, app)] pods [app] where
  ids c hc c' hc' _ := (List.mem_singleton.mp hc').trans (List.mem_singleton.mp hc).symm
  pods x hx := by
    obtain rfl := List.mem_singleton.mp hx
    exact h
  containers x hx := by
    obtain rfl := List.mem_singleton.mp hx
    exact ⟨List.mem_singleton_self _, rfl⟩

theorem truthful_early : Along (Runtime.step .calm false) RuntimeOp.Truthful early {} :=
  ⟨trivial, lists_app (by simp), trivial, lists_app (by simp), trivial, trivial, trivial⟩

theorem running_early : (run (Runtime.step .calm false) early {}).running.map
    (fun x => (x.2.id, (podSandboxToPodMeta x.1).policyKey)) = [("c1", "default/web")] := by
  decide +kernel

theorem ready_early : (run (Runtime.step .calm false) early {}).stage = .ready := by decide +kernel

theorem running_known_early : ∃ x ∈ (run (Runtime.step .calm false) early {}).running,
    x.2.id = "c1" ∧ (x ∈ (run (Runtime.step .calm false) early {}).unenforced ∨
      ∃ pm, (run (Runtime.step .calm false) early {}).resolver.Cached x.1.uid pm x.2.id
        x.2.containerMeta) := by
  have hone := running_early ▸ List.mem_singleton_self ("c1", "default/web")
  obtain ⟨x, hx, heq⟩ := List.mem_map.mp hone
  exact ⟨x, hx, (Prod.mk.inj heq).1,
    (running_known .calm false early truthful_early ready_early).2.2 x hx⟩

end Sample

/-- The namespace and the label of a reported pod. -/
def Op.named : Op → Option (PodID × Namespace × String)
  | .addPod pod => some (pod.podMeta.id, pod.podMeta.ns, pod.podMeta.policyName)
  | _ => none

theorem podsAgree_iff {ops : List Op} : PodsAgree ops ↔
    ∀ a ∈ ops.filterMap Op.named, ∀ b ∈ ops.filterMap Op.named, a.1 = b.1 → a.2 = b.2 := by
  have hmem : ∀ {pod : PodInput}, .addPod pod ∈ ops →
      (pod.podMeta.id, pod.podMeta.ns, pod.podMeta.policyName) ∈ ops.filterMap Op.named :=
    fun h => List.mem_filterMap.mpr ⟨_, h, rfl⟩
  have hpod : ∀ {a : PodID × Namespace × String}, a ∈ ops.filterMap Op.named → ∃ pod,
      .addPod pod ∈ ops ∧ (pod.podMeta.id, pod.podMeta.ns, pod.podMeta.policyName) = a := by
    intro a ha
    obtain ⟨op, hop, hop'⟩ := List.mem_filterMap.mp ha
    cases op with
    | addPod pod => exact ⟨pod, hop, Option.some.inj hop'⟩
    | _ => exact absurd hop' (by simp [Op.named])
  constructor
  · intro h a ha b hb hid
    obtain ⟨x, hx, rfl⟩ := hpod ha
    obtain ⟨y, hy, rfl⟩ := hpod hb
    obtain ⟨hns, hname⟩ := h x y hx hy hid
    exact Prod.ext hns hname
  · intro h a b ha hb hid
    exact Prod.mk.inj (h _ (hmem ha) _ (hmem hb) hid)

instance decidablePodsAgree (ops : List Op) : Decidable (PodsAgree ops) :=
  decidable_of_iff _ podsAgree_iff.symm

/-- The specs of the policies that were reconciled and not deleted. -/
def Runtime.specs (env : Env) (s : Runtime) : NamespacedPolicyName → Option WorkloadPolicy :=
  (run (Node.step env) s.trace {}).specs

/-- The container is bound to an id that holds the rules the last spec of its policy has for it. -/
def Guarded (env : Env) (s : Runtime) (x : PodSandbox × Container) : Prop :=
  ∃ wp, s.specs env (podSandboxToPodMeta x.1).policyKey = some wp ∧
    ∀ rules, wp.rulesByContainer.lookup x.2.name = some rules →
      ∃ id, s.resolver.bound x.2.cgroupID = some id ∧
        RuntimeEnforcer.Holds s.resolver.world.maps id rules.allowed ∧
        s.resolver.world.maps.policySettings id
          = some (settingsOf wp.mode rules.allowForeignRootExec)

/-- The contract with the runtime: an id or a cgroup that it reports is always that of the same
container, with the same name and in the same pod, and a pod keeps its namespace and its label. -/
structure Contract (ops : List Op) : Prop where
  inventory : Inventory (ops.flatMap Op.reports)
  podsAgree : PodsAgree ops

/-- The runtime keeps the contract, and no call to the kernel has failed. -/
structure Fits (env : Env) (ops : List Op) : Prop extends Contract ops where
  succeeds : Along (Node.step env) (fun n op => op.Succeeds env n.resolver) ops {}

theorem Watched.guarded {env : Env} {s : Runtime} (h : Watched env false s)
    (hstage : s.stage = .ready) (hfits : Fits env s.trace)
    {x : PodSandbox × Container} (hx : x ∈ s.running)
    (hpolicy : (s.resolver.wpState.lookup (podSandboxToPodMeta x.1).policyKey).isSome) :
    Guarded env s x := by
  have hknown : Known s x := by
    rcases h.ready hstage x hx with hun | hk
    · rw [h.failClosed rfl] at hun
      exact absurd hun (by simp)
    · exact hk
  -- the three views of the resolver's calls have the resolver in common
  have hnode : (run (Node.step env) s.trace {}).resolver = s.resolver :=
    (map_run Node.resolver (fun _ _ => rfl) s.trace {}).trans h.trace.symm
  have haudit : (run (Audit.step env) s.trace {}).resolver = s.resolver :=
    (map_run Audit.resolver (fun _ _ => rfl) s.trace {}).trans h.trace.symm
  obtain ⟨⟨pm, hcached⟩, input, hinput, hmeta⟩ := hknown
  -- the cached pod names the policy that the container's pod names
  have hkey : pm.policyKey = (podSandboxToPodMeta x.1).policyKey := by
    have haud : Audited s.trace (run (Audit.step env) s.trace {}) :=
      audited_run hfits.podsAgree fun _ hop => hop
    obtain ⟨entry, hentry, rfl, _⟩ := hcached
    obtain ⟨first, hfirst, hfid, hfm⟩ := (haud.cache _ entry (haudit ▸ hentry)).pod
    rw [hfm, ← hmeta]
    refine hfits.podsAgree.policyKey hfirst hinput (hfid.trans ?_)
    rw [hmeta]
    rfl
  have henf : Enforced env (run (Node.step env) s.trace {}) :=
    Enforced.init.run hfits.inventory (fun _ hr => hr) Sound.init hfits.succeeds
  obtain ⟨wp, hwp, hrules⟩ := henf.isProtected _ pm _ _ (hnode ▸ hcached)
    (hnode ▸ hkey ▸ hpolicy)
  rw [hnode] at hrules
  exact ⟨wp, hkey ▸ hwp, hrules⟩

/-- **Every container that runs is protected.** In every run of a container runtime and an agent
that fails closed, in which the calls of the BPF update functions succeed: while the plugin is
connected and synchronised, every container that runs and whose policy the agent knows is bound to
the rules that the last spec of its policy has for it, whether the container, the policy or the
agent was there first, and whether the agent was there when the container was started or not. -/
theorem running_guarded (env : Env) (ops : List RuntimeOp)
    (hops : Along (Runtime.step env false) RuntimeOp.Truthful ops {}) :
    let s := run (Runtime.step env false) ops {}
    s.stage = .ready → Inventory (s.trace.flatMap Op.reports) → PodsAgree s.trace →
      Along (Node.step env) (fun n op => op.Succeeds env n.resolver) s.trace {} →
      ∀ x ∈ s.running,
        (s.resolver.wpState.lookup (podSandboxToPodMeta x.1).policyKey).isSome →
          Guarded env s x := by
  intro s hstage hinv hpods hsucceeds x hx hpolicy
  have h : Watched env false s := watched_run hops
  exact h.guarded hstage ⟨⟨hinv, hpods⟩, hsucceeds⟩ hx hpolicy

namespace Sample

theorem running_guarded_early : ∃ x ∈ (run (Runtime.step .calm false) early {}).running,
    x.2.id = "c1" ∧ Guarded .calm (run (Runtime.step .calm false) early {}) x := by
  have hone := running_early ▸ List.mem_singleton_self ("c1", "default/web")
  obtain ⟨x, hx, heq⟩ := List.mem_map.mp hone
  obtain ⟨hid, hkey⟩ := Prod.mk.inj heq
  refine ⟨x, hx, hid, running_guarded .calm early truthful_early ready_early (by decide +kernel)
    (by decide +kernel) (by decide +kernel) x hx ?_⟩
  rw [hkey]
  decide +kernel

end Sample

end RuntimeEnforcer.Nri
