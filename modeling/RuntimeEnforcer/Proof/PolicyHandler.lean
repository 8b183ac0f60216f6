import RuntimeEnforcer.Agent.PolicyHandler
import RuntimeEnforcer.Proof.Honest
import RuntimeEnforcer.Proof.NriPlugin

/-!
# The agent catches up with the cluster

The handler as a level-triggered controller: whatever order the changes arrive in, whichever updates
the filter drops, and whatever fails and is tried again, once there is nothing left to do the
resolver knows the policies of the cluster and no others, and each is ready with the rules it has
now.

What is asked of the API server is that an update which leaves the generation alone leaves the spec
alone, also for the updates that a lost watch makes of several changes (`Counted`). The second part
is a real limit: the filter does not look at the UID, so a policy that is deleted and made anew
while the watch is lost, with the same generation, stays as it was (`Sample.forgotten`).
-/

set_option autoImplicit false

namespace RuntimeEnforcer.Workloadpolicyhandler

open Lib LevelTriggered Nri

/-! ## The generation -/

variable {req : ObjectMeta} {v : Option Spec}

/-- The generation tells two specs of one policy apart. -/
def Counted : Option Stored → Option Stored → Prop
  | some old, some new => new.generation = old.generation → new.spec = old.spec
  | _, _ => True

/-- What the API server does with the generation, in each change and across a lost watch. -/
def Served (m : Cluster) : ClusterStep → Prop
  | .change req o => Counted (m.store req) o
  | .replace req => Counted (m.cache req) (m.store req)
  | .other op => onPods op = true
  | _ => True

section

variable {env : Env} {failOpen : Bool} {m : Cluster} {n : Node} {s : Runtime}

theorem Counted.adj {old new : Option Stored} (h : Counted old new) :
    Adj (controller env) id old new := by
  intro hdrop
  cases old with
  | none =>
    cases new with
    | none => rfl
    | some new => exact absurd hdrop (by simp [dropped])
  | some old =>
    cases new with
    | none => exact absurd hdrop (by simp [dropped])
    | some new => exact congrArg some (h (of_decide_eq_true hdrop)).symm

theorem Served.sound {s : ClusterStep} (h : Served m s) :
    s.Sound (controller env) id (fun _ op => onPods op = true) m := by
  cases s with
  | change req o => exact Counted.adj h
  | replace req => exact Counted.adj h
  | other op => exact h
  | _ => trivial

/-! ## What a request does -/

variable {ops : List Op}

theorem namespacedName_injective : Function.Injective ObjectMeta.namespacedName := by
  intro o o' h
  obtain ⟨ns, name, _⟩ := o
  obtain ⟨ns', name', _⟩ := o'
  obtain ⟨rfl, rfl⟩ := namespacedName_inj h
  rfl

theorem controller_reconcile (req : ObjectMeta) (v : Option Spec) (s : Runtime) :
    (controller env).reconcile req v s =
      (isOk ((request req v).exec env s.resolver), s.ask env (request req v)) := by
  have hafter : after (reconcile env req (.ok v) s.resolver)
      = (request req v).step env s.resolver := by
    cases v with
    | none => exact after_adaptExcept ..
    | some spec => exact after_adaptExcept ..
  have hok : isOk (reconcile env req (.ok v) s.resolver)
      = isOk ((request req v).exec env s.resolver) := by
    cases v with
    | none => exact isOk_adaptExcept ..
    | some spec => exact isOk_adaptExcept ..
  show (_, { s with resolver := _, trace := _ }) = _
  rw [hafter, hok]
  rfl

/-- What holds of the resolver all along: ids are used once, the status is honest, and only what has
the name of a policy is recorded. -/
structure Sane (env : Env) (n : Node) : Prop where
  ids : Ids n.resolver
  honest : Honest env n
  named : ∀ key info, n.resolver.wpState.lookup key = some info →
    ∃ req : ObjectMeta, key = req.namespacedName

/-- The resolver knows the policy as it was read. -/
def Knows (req : ObjectMeta) (v : Option Spec) (n : Node) : Prop :=
  match v with
  | none => n.resolver.wpState.lookup req.namespacedName = none
  | some spec => n.specs req.namespacedName = some (spec.policy req) ∧
      ∃ info, n.resolver.wpState.lookup req.namespacedName = some info ∧
        info.status = { state := .ready, mode := spec.mode.toProto }

theorem Knows.keep {n n' : Node} (h : Knows req v n)
    (hspecs : n'.specs req.namespacedName = n.specs req.namespacedName)
    (hstate : n'.resolver.wpState.lookup req.namespacedName
      = n.resolver.wpState.lookup req.namespacedName) : Knows req v n' := by
  unfold Knows at h ⊢
  rw [hspecs, hstate]
  exact h

theorem lookup_reconcile (hs : Ids n.resolver) (wp : WorkloadPolicy) : ∃ info,
    ∀ key, (n.step env (.reconcile wp)).resolver.wpState.lookup key
      = if key = wp.namespacedName then some info else n.resolver.wpState.lookup key := by
  obtain ⟨s, status, hstep, -⟩ := step_reconcile env wp hs
  refine ⟨⟨s.polByContainer, status⟩, fun key => ?_⟩
  show ((Op.reconcile wp).step env n.resolver).wpState.lookup key = _
  rw [hstep]
  exact GoMap.lookup_insert_eq

def OnPods : Op → Prop
  | .addPod _ | .removePod _ _ => True
  | _ => False

theorem OnPods.wpState {op : Op} (hop : OnPods op) (n : Node) :
    (n.step env op).resolver.wpState = n.resolver.wpState := by
  cases op with
  | addPod pod => exact step_addPod.wpState
  | removePod podID cid => exact step_removePod.wpState
  | _ => exact hop.elim

theorem Sane.step (h : Sane env n) (op : Op) : Sane env (n.step env op) := by
  refine ⟨h.ids.step op, h.honest.step h.ids op, fun key info hinfo => ?_⟩
  cases op with
  | reconcile wp =>
    obtain ⟨info', hlookup⟩ := lookup_reconcile h.ids wp
    rw [hlookup] at hinfo
    split at hinfo
    · next hkey => exact ⟨wp.toObjectMeta, hkey⟩
    · exact h.named key info hinfo
  | delete o =>
    have hdel : DeleteStep o.namespacedName n.resolver (n.step env (.delete o)).resolver :=
      step_delete
    rw [hdel.wpState] at hinfo
    split at hinfo
    · exact absurd hinfo (by simp)
    · exact h.named key info hinfo
  | addPod pod =>
    have hpods : OnPods (.addPod pod) := trivial
    exact h.named key info (hpods.wpState n ▸ hinfo)
  | removePod podID cid =>
    have hpods : OnPods (.removePod podID cid) := trivial
    exact h.named key info (hpods.wpState n ▸ hinfo)

theorem sane_run (env : Env) (ops : List Op) : Sane env (run (Node.step env) ops {}) :=
  run_inv (C := fun _ _ => True) (fun _ op h _ => h.step op)
    ⟨Ids.init, fun _ _ h => absurd h (by simp), fun _ _ h => absurd h (by simp)⟩
    (along_of_forall fun _ _ => trivial)

theorem knows_reconcile (req : ObjectMeta) (spec : Spec)
    (hok : isOk (reconcileWP env (spec.policy req) n.resolver) = true) :
    Knows req (some spec) (n.step env (.reconcile (spec.policy req))) := by
  refine ⟨Function.update_self .., ?_⟩
  show ∃ info, (after (reconcileWP env (spec.policy req) n.resolver)).wpState.lookup
    req.namespacedName = some info ∧ _
  unfold reconcileWP at hok ⊢
  simp only at hok ⊢
  split at hok
  · next hres =>
    simp only [after_ok]
    exact ⟨_, GoMap.lookup_insert_eq.trans (if_pos rfl), rfl⟩
  · exact absurd hok (by simp [isOk])

theorem knows_request (req : ObjectMeta) (v : Option Spec)
    (hok : isOk ((request req v).exec env n.resolver) = true) :
    Knows req v (n.step env (request req v)) := by
  cases v with
  | none =>
    have hdel : DeleteStep req.namespacedName n.resolver (n.step env (.delete req)).resolver :=
      step_delete
    exact (hdel.wpState _).trans (if_pos rfl)
  | some spec => exact knows_reconcile req spec hok

theorem lookup_request {other : ObjectMeta} (v : Option Spec) (hs : Ids n.resolver)
    (hne : other ≠ req) : (n.step env (request req v)).resolver.wpState.lookup other.namespacedName
      = n.resolver.wpState.lookup other.namespacedName := by
  have hkey : other.namespacedName ≠ req.namespacedName :=
    fun he => hne (namespacedName_injective he)
  cases v with
  | none =>
    have hdel : DeleteStep req.namespacedName n.resolver (n.step env (.delete req)).resolver :=
      step_delete
    exact (hdel.wpState _).trans (if_neg hkey)
  | some spec =>
    obtain ⟨info, hlookup⟩ := lookup_reconcile hs (spec.policy req)
    exact (hlookup _).trans (if_neg hkey)

theorem Knows.request {other : ObjectMeta} {w : Option Spec} (hs : Ids n.resolver)
    (h : Knows other w n) (hne : other ≠ req) : Knows other w (n.step env (request req v)) := by
  have hkey : other.namespacedName ≠ req.namespacedName :=
    fun he => hne (namespacedName_injective he)
  refine h.keep ?_ (lookup_request v hs hne)
  cases v <;> exact Function.update_of_ne hkey _ _

theorem wpState_pods (hops : ∀ op ∈ ops, OnPods op) :
    (run (Node.step env) ops n).resolver.wpState = n.resolver.wpState :=
  run_inv (C := fun _ op => OnPods op)
    (I := fun n' => n'.resolver.wpState = n.resolver.wpState)
    (fun n' _ h hop => (hop.wpState n').trans h) rfl (along_of_forall hops)

theorem Knows.pods (h : Knows req v n) (hops : ∀ op ∈ ops, OnPods op) :
    Knows req v (run (Node.step env) ops n) := by
  refine run_inv (C := fun _ op => OnPods op) (fun n op h hop => ?_) h (along_of_forall hops)
  refine h.keep ?_ (by rw [hop.wpState])
  cases op with
  | addPod pod => rfl
  | removePod podID cid => rfl
  | _ => exact hop.elim

/-! ## What the runtime asks for -/

variable {s' : Runtime}

/-- The resolver as its calls have left it, with the specs it was told. -/
def node (env : Env) (s : Runtime) : Node := run (Node.step env) s.trace {}

/-- The resolver is as its calls have left it. -/
def Traced (env : Env) (s : Runtime) : Prop := s.resolver = run (Op.step env) s.trace {}

theorem Traced.node (h : Traced env s) : (node env s).resolver = s.resolver :=
  (map_run Node.resolver (fun _ _ => rfl) s.trace {}).trans h.symm

theorem node_ask (op : Op) : node env (s.ask env op) = (node env s).step env op := by
  unfold node Runtime.ask
  rw [run_append]
  rfl

/-- The resolver is asked about pods, and nothing else changes it. -/
structure Asks (env : Env) (s s' : Runtime) (ops : List Op) : Prop where
  pods : ∀ op ∈ ops, OnPods op
  trace : s'.trace = s.trace ++ ops
  resolver : s'.resolver = run (Op.step env) ops s.resolver

theorem Asks.nothing (htrace : s'.trace = s.trace) (hres : s'.resolver = s.resolver) :
    Asks env s s' [] :=
  ⟨by simp, by rw [htrace, List.append_nil], hres⟩

theorem Asks.one {op : Op} (hop : OnPods op) (htrace : s'.trace = (s.ask env op).trace)
    (hres : s'.resolver = (s.ask env op).resolver) : Asks env s s' [op] :=
  ⟨by simpa using hop, htrace, hres⟩

theorem Asks.trans {s₁ s₂ : Runtime} {ops' : List Op} (h : Asks env s s₁ ops)
    (h' : Asks env s₁ s₂ ops') : Asks env s s₂ (ops ++ ops') where
  pods op hop := (List.mem_append.mp hop).elim (h.pods op) (h'.pods op)
  trace := by rw [h'.trace, h.trace, List.append_assoc]
  resolver := by rw [h'.resolver, h.resolver, run_append]

theorem asks_start (failing : Failing) (pod : PodSandbox) (c : Container) :
    ∃ ops, Asks env s (s.start env failOpen failing pod c) ops := by
  unfold Runtime.start
  cases s.stage with
  | disconnected => exact ⟨[], .nothing rfl rfl⟩
  | syncing rest => exact ⟨[], .nothing rfl rfl⟩
  | ready =>
    -- what the runtime does with the answer does not concern the resolver
    have hgo : ∀ (answer : Started) (s' : Runtime),
        (s'.goOn answer pod c).trace = s'.trace ∧
          (s'.goOn answer pod c).resolver = s'.resolver := by
      intro answer s'
      cases answer <;> exact ⟨rfl, rfl⟩
    simp only
    obtain ⟨htrace, hres⟩ := hgo (startContainer env failOpen failing pod c s.resolver).1
      (s.askStart env failOpen failing pod c)
    rcases startContainer_cases env failOpen failing pod c s.resolver with
      ⟨hfail, hstart, -⟩ | ⟨hfail, hstart, -⟩
    · refine ⟨[], .nothing (htrace.trans ?_) (hres.trans hstart)⟩
      show s.trace ++ (if failing c.id = none then _ else _) = s.trace
      rw [if_neg hfail, List.append_nil]
    · refine ⟨[.addPod (startInput pod c)], .one trivial (htrace.trans ?_) (hres.trans hstart)⟩
      show s.trace ++ (if failing c.id = none then _ else _) = _
      rw [if_pos hfail]
      rfl

theorem asks_step (env : Env) (failOpen : Bool) (s : Runtime) {op : RuntimeOp}
    (hop : onPods op = true) : ∃ ops, Asks env s (s.step env failOpen op) ops := by
  cases op with
  | reconcile wp => exact absurd hop (by simp [onPods])
  | delete o => exact absurd hop (by simp [onPods])
  | connect failing pods containers =>
    refine ⟨[], ?_⟩
    show Asks env s (s.connect failing pods containers) []
    unfold Runtime.connect
    repeat' split
    all_goals exact .nothing rfl rfl
  | syncPod =>
    show ∃ ops, Asks env s (s.syncPod env) ops
    unfold Runtime.syncPod
    cases s.stage with
    | disconnected => exact ⟨[], .nothing rfl rfl⟩
    | ready => exact ⟨[], .nothing rfl rfl⟩
    | syncing rest =>
      cases rest with
      | nil => exact ⟨[], .nothing rfl rfl⟩
      | cons input rest =>
        refine ⟨[.addPod input], ?_⟩
        simp only
        split
        · exact .one trivial rfl rfl
        · exact .one trivial rfl rfl
  | disconnect => exact ⟨[], .nothing rfl rfl⟩
  | start failing pod c => exact asks_start failing pod c
  | remove pod c =>
    show ∃ ops, Asks env s (s.remove env pod c) ops
    unfold Runtime.remove
    cases s.stage with
    | disconnected => exact ⟨[], .nothing rfl rfl⟩
    | syncing rest => exact ⟨[], .nothing rfl rfl⟩
    | ready => exact ⟨[.removePod pod.uid c.id], .one trivial rfl rfl⟩

theorem Asks.traced (h : Asks env s s' ops) (hs : Traced env s) : Traced env s' := by
  unfold Traced
  rw [h.resolver, h.trace, run_append, ← show s.resolver = _ from hs]

theorem Asks.node (h : Asks env s s' ops) :
    node env s' = run (Node.step env) ops (Workloadpolicyhandler.node env s) := by
  unfold Workloadpolicyhandler.node
  rw [h.trace, run_append]

/-- **The handler is a reconciler**: what it has reconciled stays so until the policy changes. -/
theorem controller_reconciles (env : Env) (failOpen : Bool) :
    LevelTriggered.Reconciles (controller env) id (Runtime.step env failOpen)
      (fun _ op => onPods op = true) (Traced env)
      (fun req v s => Knows req v (node env s)) where
  inv req v s h := by
    rw [controller_reconcile]
    exact run_ask h _
  agrees req v s h hok := by
    rw [controller_reconcile] at hok ⊢
    rw [node_ask, Option.map_id]
    exact knows_request req v (h.node.symm ▸ hok)
  frame req v s other w _ hne hknows := by
    rw [controller_reconcile, node_ask]
    exact hknows.request (sane_run env s.trace).ids hne
  othersInv op s hop h := by
    obtain ⟨ops, hasks⟩ := asks_step env failOpen s hop
    exact hasks.traced h
  othersFrame op s req v hop _ hknows := by
    obtain ⟨ops, hasks⟩ := asks_step env failOpen s hop
    rw [hasks.node]
    exact hknows.pods hasks.pods

end

/-! ## Which policies there are

For the question which policies the resolver knows, the generation does not matter: the filter only
drops updates, and after an update there is a policy as before. -/

/-- The resolver knows a policy of the name. -/
def Recorded (req : ObjectMeta) (v : Option Unit) (n : Node) : Prop :=
  (n.resolver.wpState.lookup req.namespacedName).isSome = v.isSome

theorem Knows.recorded {n : Node} (h : Knows req v n) : Recorded req (v.map fun _ => ()) n := by
  unfold Recorded
  cases v with
  | none =>
    have hnone : n.resolver.wpState.lookup req.namespacedName = none := h
    rw [hnone]
    rfl
  | some spec =>
    obtain ⟨-, info, hinfo, -⟩ := h
    rw [hinfo]
    rfl

theorem recorded_reconciles (env : Env) (failOpen : Bool) :
    LevelTriggered.Reconciles (controller env) (fun _ => ()) (Runtime.step env failOpen)
      (fun _ op => onPods op = true) (Traced env)
      (fun req v s => Recorded req v (node env s)) where
  inv := (controller_reconciles env failOpen).inv
  agrees req v s h hok := by
    have hknows := (controller_reconciles env failOpen).agrees req v s h hok
    rw [Option.map_id] at hknows
    exact Knows.recorded hknows
  frame req v s other w _ hne hrec := by
    have hids : Ids (node env s).resolver := (sane_run env s.trace).ids
    rw [controller_reconcile, node_ask, Recorded, lookup_request v hids hne]
    exact hrec
  othersInv := (controller_reconciles env failOpen).othersInv
  othersFrame op s req v hop _ hrec := by
    obtain ⟨ops, hasks⟩ := asks_step env failOpen s hop
    rw [hasks.node, Recorded, wpState_pods hasks.pods]
    exact hrec

/-- Whatever else the runtime does, it does not tell the resolver about policies. -/
def PodsOnly : ClusterStep → Prop
  | .other op => onPods op = true
  | _ => True

/-- **Once there is nothing left to do, the resolver knows the policies that exist and no others**,
whatever the API server does with the generations. -/
theorem recorded_of_idle {env : Env} {failOpen : Bool} {steps : List ClusterStep}
    (hsteps : ∀ st ∈ steps, PodsOnly st)
    (hidle : (run (Cluster.step env failOpen) steps { state := {} }).Idle) :
    let m := run (Cluster.step env failOpen) steps { state := {} }
    Traced env m.state ∧ ∀ key, (m.state.resolver.wpState.lookup key).isSome ↔
      ∃ req, key = req.namespacedName ∧ (m.store req).isSome := by
  intro m
  have hstart : Inv (controller env) (fun _ => ()) (Traced env)
      (fun req v s => Recorded req v (node env s)) { state := {} } := Inv.start rfl fun _ => rfl
  have halong : Along (Cluster.step env failOpen)
      (Step.Sound (controller env) (fun _ => ()) fun _ op => onPods op = true) steps
      { state := {} } := by
    refine (along_of_forall hsteps).mono fun m st hst => ?_
    cases st with
    | change req o => exact adj_const (controller env) () _ _
    | replace req => exact adj_const (controller env) () _ _
    | other op => exact hst
    | _ => trivial
  have hinv : Inv (controller env) (fun _ => ()) (Traced env)
      (fun req v s => Recorded req v (node env s)) m :=
    hstart.run (recorded_reconciles env failOpen) halong
  refine ⟨hinv.inv, fun key => ?_⟩
  have hres := hinv.inv.node
  constructor
  · intro hkey
    obtain ⟨info, hinfo⟩ := Option.isSome_iff_exists.mp hkey
    obtain ⟨req, rfl⟩ := (sane_run env m.state.trace).named key info (hres.symm ▸ hinfo)
    have hrec : Recorded req _ (node env m.state) := hinv.idle hidle req
    rw [Recorded, hres, hkey, Option.isSome_map] at hrec
    exact ⟨req, rfl, hrec.symm⟩
  · rintro ⟨req, rfl, hreq⟩
    have hrec : Recorded req _ (node env m.state) := hinv.idle hidle req
    rw [Recorded, hres, Option.isSome_map, hreq] at hrec
    exact hrec

/-! ## Once there is nothing left to do -/

/-- The resolver reports the policies of the cluster, each with its rules, and the probe
succeeds. -/
structure UpToDate (m : Cluster) : Prop where
  reported : ∀ key, (m.state.resolver.getPolicyStatuses.lookup key).isSome ↔
    ∃ req, key = req.namespacedName ∧ (m.store req).isSome
  ready : ∀ req o, m.store req = some o →
    m.state.resolver.getPolicyStatuses.lookup req.namespacedName
      = some { state := .ready, mode := o.spec.mode.toProto }
  rules : ∀ req o, m.store req = some o →
    ∀ name rules, o.spec.rulesByContainer.lookup name = some rules →
      ∃ id, m.state.resolver.pol req.namespacedName name = some id ∧
        m.state.resolver.world.maps.policySettings id
          = some (settingsOf o.spec.mode rules.allowForeignRootExec) ∧
        Holds m.state.resolver.world.maps id rules.allowed
  probe : ∀ synced wps,
    (∀ wp ∈ wps, ∃ req o, m.store req = some o ∧ wp = o.spec.policy req) →
      (hasSynced m.state.resolver synced (.ok wps)).1.isOk

section

variable {env : Env} {m : Cluster} {n : Node}

theorem Knows.status {spec : Spec} (h : Knows req (some spec) n) :
    n.resolver.getPolicyStatuses.lookup req.namespacedName
      = some { state := .ready, mode := spec.mode.toProto } := by
  obtain ⟨-, info, hinfo, hstatus⟩ := h
  unfold Resolver.getPolicyStatuses
  rw [GoMap.lookup_map, hinfo]
  exact congrArg some hstatus

theorem Knows.carries {spec : Spec} (h : Knows req (some spec) n) (hh : Honest env n)
    {name : ContainerName} {rules : WorkloadPolicyRules}
    (hr : spec.rulesByContainer.lookup name = some rules) :
    ∃ id, n.resolver.pol req.namespacedName name = some id ∧
      Carries env (spec.policy req) rules n.resolver.world.maps id := by
  obtain ⟨hspecs, info, hinfo, hstatus⟩ := h
  obtain ⟨wp, hwp, -, hrules⟩ := hh _ info hinfo (by rw [hstatus])
  -- the spec it was told last is the one that was read
  obtain rfl := Option.some.inj (hspecs.symm.trans hwp)
  exact hrules name rules hr

theorem hasSynced_of_knows {wps : List WorkloadPolicy}
    (h : ∀ wp ∈ wps, ∃ req spec, Knows req (some spec) n ∧ wp = spec.policy req) :
    RuntimeEnforcer.hasSynced n.resolver.getPolicyStatuses wps = .ok () := by
  induction wps with
  | nil => rfl
  | cons wp wps ih =>
    obtain ⟨req, spec, hknows, rfl⟩ := h _ List.mem_cons_self
    have hstatus : n.resolver.getPolicyStatuses.lookup (spec.policy req).namespacedName = _ :=
      hknows.status
    unfold RuntimeEnforcer.hasSynced
    rw [hstatus]
    have hmode : spec.mode.toProto = (spec.policy req).mode.toProto := rfl
    simp only [← hmode, ne_eq, not_true_eq_false, if_false]
    exact ih fun wp hwp => h wp (List.mem_cons_of_mem _ hwp)

theorem UpToDate.of_knows (ht : Traced env m.state)
    (h : ∀ req, Knows req ((m.store req).map Stored.spec) (node env m.state)) : UpToDate m := by
  have hs : Sane env (node env m.state) := sane_run env _
  have hsome : ∀ req o, m.store req = some o → Knows req (some o.spec) (node env m.state) := by
    intro req o ho
    have hreq := h req
    rw [ho] at hreq
    exact hreq
  have hres := ht.node
  constructor
  case reported =>
    intro key
    rw [← hres]
    constructor
    · intro hkey
      obtain ⟨status, hstatus⟩ := Option.isSome_iff_exists.mp hkey
      unfold Resolver.getPolicyStatuses at hstatus
      rw [GoMap.lookup_map] at hstatus
      obtain ⟨info, hinfo, -⟩ := Option.map_eq_some_iff.mp hstatus
      obtain ⟨req, rfl⟩ := hs.named key info hinfo
      refine ⟨req, rfl, ?_⟩
      cases ho : m.store req with
      | some o => rfl
      | none =>
        have hnone := h req
        rw [ho] at hnone
        exact absurd (hinfo.symm.trans hnone) (by simp)
    · rintro ⟨req, rfl, hreq⟩
      obtain ⟨o, ho⟩ := Option.isSome_iff_exists.mp hreq
      rw [(hsome req o ho).status]
      rfl
  case ready => exact fun req o ho => hres ▸ (hsome req o ho).status
  case rules =>
    intro req o ho name rules hr
    obtain ⟨id, hid, hc⟩ := (hsome req o ho).carries hs.honest hr
    rw [hres] at hid hc
    exact ⟨id, hid, hc.settings, holds_of_newClass hc.valid hc.strings⟩
  case probe =>
    intro synced wps hwps
    unfold hasSynced
    split
    · rfl
    · have hall := hasSynced_of_knows fun wp hwp => by
        obtain ⟨req, o, ho, hwp⟩ := hwps wp hwp
        exact ⟨req, o.spec, hsome req o ho, hwp⟩
      rw [hres] at hall
      simp only [hall]
      rfl

theorem inv_run (env : Env) (failOpen : Bool) {steps : List ClusterStep}
    (hserved : Along (Cluster.step env failOpen) Served steps { state := {} }) :
    Inv (controller env) id (Traced env) (fun req v s => Knows req v (node env s))
      (run (Cluster.step env failOpen) steps { state := {} }) := by
  have hstart : Inv (controller env) id (Traced env) (fun req v s => Knows req v (node env s))
      { state := {} } := Inv.start rfl fun _ => rfl
  exact hstart.run (controller_reconciles env failOpen) (hserved.mono fun _ _ h => h.sound)

end

/-- **Once there is nothing left to do, the agent has caught up with the cluster.** In every run,
with any calls failing: the resolver reports the policies that exist and no others, each of them
ready, with exactly the rules of its present spec stored under the id of each container, and the
startup probe succeeds. -/
theorem idle_upToDate {env : Env} {failOpen : Bool} {steps : List ClusterStep}
    (hserved : Along (Cluster.step env failOpen) Served steps { state := {} })
    (hidle : (run (Cluster.step env failOpen) steps { state := {} }).Idle) :
    UpToDate (run (Cluster.step env failOpen) steps { state := {} }) :=
  have hinv := inv_run env failOpen hserved
  .of_knows hinv.inv (hinv.idle hidle)

namespace Sample

open RuntimeEnforcer.Sample Nri.Sample

def allowing (mode : Mode) (path : String) : Spec :=
  ⟨mode, (∅ : GoMap _ _).insert "app" { allowed := [path.toUTF8.toList] }⟩

def edited : List ClusterStep :=
  [.change web (some ⟨allowing .monitor "/bin/sh", 1⟩), .deliver,
    .other (.start (fun _ => none) sandbox app), .take web,
    .change web (some ⟨allowing .protect "/bin/ls", 2⟩), .deliver, .finish,
    .other (.connect (fun _ => none) [some sandbox] [app]), .other .syncPod, .other .syncPod,
    .take web, .finish, .take web, .finish]

/-- Every change has a generation of its own. -/
def renumbers (m : Cluster) : ClusterStep → Bool
  | .change req o => (m.store req).map Stored.generation ≠ o.map Stored.generation
  | .replace req => (m.cache req).map Stored.generation ≠ (m.store req).map Stored.generation
  | .other op => onPods op
  | _ => true

theorem counted_of_ne {old new : Option Stored}
    (h : old.map Stored.generation ≠ new.map Stored.generation) : Counted old new := by
  cases old with
  | none => trivial
  | some old =>
    cases new with
    | none => trivial
    | some new => exact fun he => absurd (congrArg some he.symm) h

theorem served_of_renumbers {m : Cluster} {s : ClusterStep} (h : renumbers m s = true) :
    Served m s := by
  cases s with
  | change req o => exact counted_of_ne (of_decide_eq_true h)
  | replace req => exact counted_of_ne (of_decide_eq_true h)
  | other op => exact h
  | _ => trivial

theorem idle_upToDate_edited :
    UpToDate (run (Cluster.step (.failsAt 9) false) edited { state := {} }) ∧
      (run (Cluster.step (.failsAt 9) false) edited
        { state := {} }).state.resolver.getPolicyStatuses.lookup "default/web"
          = some ⟨.ready, .protect, ""⟩ := by
  refine ⟨idle_upToDate ?_ ⟨?_, ?_, ?_⟩, by decide +kernel⟩
  · exact Along.mono (fun _ _ => served_of_renumbers)
      (by decide +kernel : Along _ (fun m s => renumbers m s = true) edited _)
  · exact List.isEmpty_iff.mp (by decide +kernel)
  · exact List.isEmpty_iff.mp (by decide +kernel)
  · exact Option.isNone_iff_eq_none.mp (by decide +kernel)

/-- The policy is deleted and made anew while the watch is lost. -/
def forgotten : List ClusterStep :=
  [.change web (some ⟨allowing .monitor "/bin/sh", 1⟩), .deliver, .take web, .finish,
    .change web none, .change web (some ⟨allowing .protect "/bin/ls", 1⟩), .replace web]

/-- There is nothing left to do, and the old policy is in force. -/
example :
    (run (Cluster.step .calm false) forgotten { state := {} }).events.isEmpty ∧
    (run (Cluster.step .calm false) forgotten { state := {} }).queue.isEmpty ∧
    ((run (Cluster.step .calm false) forgotten { state := {} }).store web).map (·.spec.mode)
      = some .protect ∧
    (run (Cluster.step .calm false) forgotten
      { state := {} }).state.resolver.getPolicyStatuses.lookup "default/web"
        = some ⟨.ready, .monitor, ""⟩ := by decide +kernel

end Sample

end RuntimeEnforcer.Workloadpolicyhandler
