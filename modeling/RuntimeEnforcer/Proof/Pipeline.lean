import RuntimeEnforcer.Agent.EventScraper
import RuntimeEnforcer.Proof.HookRecords
import RuntimeEnforcer.Proof.Provenance

/-!
# From an exec to the violation that is reported

The hook judges an exec by the maps as it finds them, and leaves a record in a ring buffer. The
record carries the cgroup and not the policy. Userspace decodes it later, asks the resolver which
container the cgroup is, and files the violation under the policy of the pod, while policies are
rewritten and deleted, pods come and go, and calls fail.

`Agent` is one agent with both ends of the ring buffers. A record in a ring buffer carries, as a
history variable, the exec and the maps it was made of. The tracker map is the kernel's to change at
any time, so an exec comes with the tracker map it finds; of the other maps it finds any state they
have been in.
-/

set_option autoImplicit false

namespace RuntimeEnforcer.Eventscraper

open Lib Hook Api Eventhandler
open Violationbuf (ScrapedViolation)

/-! ## One agent -/

/-- A record that the hook has submitted, with what it was made of. -/
structure Sent where
  exec : Exec
  maps : BpfMaps
  evt : ProcessEvt
  record : Bytes

/-- The cgroup the exec is accounted to. -/
def Sent.cgroup (s : Sent) : CgroupID := getTrackerIdFromCurrTask s.maps s.exec

structure Agent where
  audit : Audit := {}
  ringbufExecve : List Sent := []
  ringbufMonitoring : List Sent := []
  scraper : EventScraper := {}
  unparsed : List String := []
  panicked : Bool := false
  sentExecve : List Sent := []
  sentMonitoring : List Sent := []
  scraped : List ScrapedViolation := []

inductive AgentOp
  | resolver (op : Op)
  | exec (x : Exec) (evt : ProcessEvt) (tracker : CgroupID → Option UInt64) (lag : Nat)
  | learning
  | monitoring (clock : EventScraper.Clock)
  | scrape

namespace Agent

/-- The maps as an exec finds them. -/
def found (tracker : CgroupID → Option UInt64) (lag : Nat) (w : World) : BpfMaps :=
  { w.history.getD lag w.maps with cgtracker := fun cg => (tracker cg).map UInt64.toNat }

def exec (x : Exec) (evt : ProcessEvt) (maps : BpfMaps) (a : Agent) : Agent :=
  let outcome := enforceCgroupPolicy x maps evt
  let learning := (outcome.execve.map fun r => ⟨x, maps, evt, r⟩).toList
  let violation := (outcome.monitoring.map fun r => ⟨x, maps, evt, r⟩).toList
  { a with
    ringbufExecve := a.ringbufExecve ++ learning
    sentExecve := a.sentExecve ++ learning
    ringbufMonitoring := a.ringbufMonitoring ++ violation
    sentMonitoring := a.sentMonitoring ++ violation }

/-- What comes of a record, given what the scraper does with its event. -/
def consume (s : Sent) (scrape : ProcessEvent → EventScraper → EventScraper) (a : Agent) : Agent :=
  match processRingbufEvent s.record with
  | .event e => { a with scraper := scrape e a.scraper }
  | .skipped reason => { a with unparsed := a.unparsed ++ [reason] }
  | .panicked _ => { a with panicked := true }

def step (env : Env) (opts : Options) (op : AgentOp) (a : Agent) : Agent :=
  match op with
  | .resolver op => { a with audit := a.audit.step env op }
  | .exec x evt tracker lag => a.exec x evt (found tracker lag a.audit.resolver.world)
  | .learning =>
    match a.ringbufExecve with
    | [] => a
    | s :: rest => { a with ringbufExecve := rest }.consume s fun e es =>
        es.onLearning env opts e a.audit.resolver
  | .monitoring clock =>
    match a.ringbufMonitoring with
    | [] => a
    | s :: rest => { a with ringbufMonitoring := rest }.consume s fun e es =>
        es.onMonitoring env opts clock e a.audit.resolver
  | .scrape => { a with
      scraped := a.scraped ++ a.scraper.scrape.1
      scraper := a.scraper.scrape.2 }

/-- The violations the controller was answered, and those it will be. -/
def reported (a : Agent) : List ScrapedViolation :=
  a.scraped ++ a.scraper.violationBuffer.contents.map Violationbuf.ViolationRecord.toProto

end Agent

/-- The resolver's part of a run. -/
def resolverOps (ops : List AgentOp) : List Op :=
  ops.filterMap fun
    | .resolver op => some op
    | _ => none

/-! ## What a violation should say -/

/-- The exec was judged under `id`, given out for container `name` of policy `key`, with the list
that specs of the policy gave the container and with the settings of the spec `wp`. -/
structure JudgedBy (ops : List Op) (log : List Grant) (s : Sent) (key : NamespacedPolicyName)
    (name : ContainerName) (id : PolicyID) (wp : WorkloadPolicy) (rules : WorkloadPolicyRules) :
    Prop where
  bound : s.maps.cgToPolicy.lookup s.cgroup = some id
  granted : ⟨key, name, id⟩ ∈ log
  fromRules : FromRules ops key name s.maps id
  reconciled : .reconcile wp ∈ ops
  policy : wp.namespacedName = key
  container : wp.rulesByContainer.lookup name = some rules
  settings : s.maps.policySettings id = some (settingsOf wp.mode rules.allowForeignRootExec)

/-- The violation of the exec: under the policy and the container whose rules the exec was judged
by, with the path of its record, the mode that applied and whether the file is foreign. -/
structure ViolationOf (ops : List Op) (log : List Grant) (s : Sent) (key : NamespacedPolicyName)
    (name : ContainerName) (path : Bytes) (action : String) (foreign : Bool) : Prop where
  judged : ∃ id wp rules, JudgedBy ops log s key name id wp rules ∧ action = wp.mode.string
  path : ∃ e, processRingbufEvent s.record = .event e ∧ e.exePath = path
  foreign : foreign = execIsForeignRoot s.exec

/-- The exec ran without a policy in the cgroup of the container that `info` names. -/
structure LearnedFrom (ops : List Op) (s : Sent) (info : KubeProcessInfo) : Prop where
  unbound : s.maps.cgToPolicy.lookup s.cgroup = none
  container : ∃ pod ci, .addPod pod ∈ ops ∧ pod.podMeta.ns = info.ns ∧
    pod.podMeta.policyName = info.policyName ∧
    pod.containers.lookup info.containerID = some ci ∧ ci.name = info.containerName ∧
    ci.cgroupID = s.cgroup
  path : ∃ e, processRingbufEvent s.record = .event e ∧ e.exePath = info.executablePath
  foreign : info.foreignRoot = execIsForeignRoot s.exec

/-! ## What the resolver says of a cgroup -/

variable {info : KubeProcessInfo} {key : NamespacedPolicyName} {name : ContainerName} {s : Sent}

section

variable {e : ProcessEvent}

variable {env : Env} {opts : Options} {ops : List Op} {a : Audit} {r : Resolver}

theorem cached_of_view {cg : CgroupID} {v : ContainerView}
    (h : getContainerView env cg r = .ok v) :
    (∃ p, r.Cached p v.podMeta v.containerID v.container) ∧ v.container.cgroupID = cg := by
  unfold getContainerView at h
  cases hp : r.cgroupIDToPodID.lookup cg with
  | none => simp [hp] at h
  | some p =>
    simp only [hp] at h
    cases hentry : r.podCache.lookup p with
    | none => simp [hentry] at h
    | some entry =>
      simp only [hentry] at h
      cases he : (env.containers.range r.world.clock entry.containers).find?
          (fun e => cg = e.2.cgroupID) with
      | none => simp [he] at h
      | some e =>
        simp only [he, Except.ok.injEq] at h
        subst h
        have hfound := List.find?_some he
        have hcg : cg = e.2.cgroupID := of_decide_eq_true hfound
        have hmem := (env.containers.mem_range _).mp (List.mem_of_find?_eq_some he)
        exact ⟨⟨p, entry, hentry, rfl, hcg ▸ hmem⟩, rfl⟩

theorem report_of_cached (hpods : PodsAgree ops) (h : Audited ops a) {p : PodID} {pm : PodMeta}
    {cid : ContainerID} {c : ContainerMeta} (hc : a.resolver.Cached p pm cid c) :
    ∃ pod ci, .addPod pod ∈ ops ∧ pod.podMeta.ns = pm.ns ∧ pod.podMeta.policyName = pm.policyName ∧
      pod.containers.lookup cid = some ci ∧ ci.toContainerMeta = c := by
  obtain ⟨entry, hentry, rfl, hcid⟩ := hc
  obtain ⟨x, hx, hxid, hxm⟩ := (h.cache p entry hentry).pod
  obtain ⟨pod, ci, hpod, hpodid, hci, hmeta⟩ := (h.cache p entry hentry).containers cid c hcid
  obtain ⟨hns, hname⟩ := hpods pod x hpod hx (hpodid.trans hxid.symm)
  rw [hxm]
  exact ⟨pod, ci, hpod, hns, hname, hci, hmeta⟩

theorem report_of_info (hpods : PodsAgree ops) (h : Audited ops a)
    (hinfo : getKubeProcessInfo env opts e a.resolver = .ok info) :
    (∃ pod ci, .addPod pod ∈ ops ∧ pod.podMeta.ns = info.ns ∧
      pod.podMeta.policyName = info.policyName ∧
      pod.containers.lookup info.containerID = some ci ∧ ci.name = info.containerName ∧
      ci.cgroupID = e.cgTrackerID) ∧
    info.executablePath = e.exePath ∧ info.foreignRoot = e.foreignRoot := by
  unfold getKubeProcessInfo at hinfo
  cases hview : getContainerView env e.cgTrackerID a.resolver with
  | error err => simp [hview] at hinfo
  | ok v =>
    simp only [hview, Except.ok.injEq] at hinfo
    subst hinfo
    obtain ⟨⟨p, hc⟩, hcg⟩ := cached_of_view hview
    obtain ⟨pod, ci, hpod, hns, hname, hci, hmeta⟩ := report_of_cached hpods h hc
    refine ⟨⟨pod, ci, hpod, hns, hname, hci, ?_, ?_⟩, rfl, rfl⟩
    · exact congrArg ContainerMeta.name hmeta
    · exact (congrArg ContainerMeta.cgroupID hmeta).trans hcg

/-- **One cgroup, one container**: a binding was made for the container that the cgroup is. -/
theorem Reported.unique (hinv : Inventory (ops.flatMap Op.reports)) (hpods : PodsAgree ops)
    {cg : CgroupID} (h : Reported ops key name cg) {pod : PodInput} {cid : ContainerID}
    {ci : ContainerInput} (hpod : .addPod pod ∈ ops) (hci : pod.containers.lookup cid = some ci)
    (hcg : ci.cgroupID = cg) : pod.podMeta.policyKey = key ∧ ci.name = name := by
  obtain ⟨x, cid', ci', hx, rfl, hci', rfl, rfl⟩ := h
  have heq := (hinv _ (List.mem_flatMap.mpr ⟨_, hpod, mem_reports hci⟩) _
    (List.mem_flatMap.mpr ⟨_, hx, mem_reports hci'⟩)).2 hcg
  simp only [Report.mk.injEq] at heq
  exact ⟨hpods.policyKey hpod hx heq.1, heq.2.2.1⟩

/-- What a resolver's operation does to the log and to the history of the maps: both only grow. -/
theorem audit_grows (env : Env) (h : Ids a.resolver) (op : Op) :
    (∀ g ∈ a.log, g ∈ (a.step env op).log) ∧
    ∀ m ∈ a.resolver.world.history, m ∈ (a.step env op).resolver.world.history := by
  refine ⟨fun g hg => List.mem_append_left _ hg, fun m hm => ?_⟩
  cases op with
  | reconcile wp =>
    obtain ⟨s, status, hstep, hrec⟩ := step_reconcile env wp h
    have hres : (a.step env (.reconcile wp)).resolver
        = a.resolver.commit wp.namespacedName s status := hstep
    rw [hres]
    exact hrec.renumbers.moves.subset hm
  | delete o => exact (step_delete (o := o)).moves.subset hm
  | addPod pod =>
    have hpod : PodStep _ a.resolver (a.step env (.addPod pod)).resolver := step_addPod
    exact hpod.moves.subset hm
  | removePod podID cid => exact step_removePod.moves.subset hm

/-! ## The records in the ring buffers -/

/-- The maps are a state the maps have been in, but for the tracker map, which has 64-bit ids. -/
structure Genuine (w : World) (s : Sent) : Prop where
  maps : ∃ m ∈ w.history, s.maps = { m with cgtracker := s.maps.cgtracker }
  cgroup : s.cgroup < 2 ^ 64

theorem getTrackerIdFromCurrTask_found_lt (x : Exec) (tracker : CgroupID → Option UInt64)
    (lag : Nat) (w : World) :
    getTrackerIdFromCurrTask (Agent.found tracker lag w) x < 2 ^ 64 := by
  unfold getTrackerIdFromCurrTask getTrackerIdFromTask
  simp only
  split
  · decide
  · unfold cgrpGetTrackerId Agent.found
    simp only
    cases tracker _ with
    | none => decide
    | some id => exact id.toNat_lt

theorem genuine_found (x : Exec) (evt : ProcessEvt) (tracker : CgroupID → Option UInt64)
    (lag : Nat) (w : World) (r : Bytes) : Genuine w ⟨x, Agent.found tracker lag w, evt, r⟩ where
  maps := by
    refine ⟨w.history.getD lag w.maps, ?_, rfl⟩
    rw [List.getD_eq_getElem?_getD]
    cases hget : w.history[lag]? with
    | none => exact mem_history w
    | some m => exact List.mem_of_getElem? hget
  cgroup := getTrackerIdFromCurrTask_found_lt x tracker lag w

/-- A violation was judged by the rules of a container that was reported with the cgroup, and its
record is decoded to an event of that cgroup or skipped. -/
theorem judged_of_sent (h : Audited ops a) (hs : Genuine a.resolver.world s)
    (hmon : (enforceCgroupPolicy s.exec s.maps s.evt).monitoring = some s.record) :
    ∃ key name id wp rules, JudgedBy ops a.log s key name id wp rules ∧
      Reported ops key name s.cgroup ∧
      ((∃ reason, processRingbufEvent s.record = .skipped reason) ∨
        ∃ path, processRingbufEvent s.record
          = .event ⟨s.cgroup, path, wp.mode.string, execIsForeignRoot s.exec⟩) := by
  obtain ⟨id, st, hid, hst, hrec⟩ := monitoring_recordOf hmon
  obtain ⟨m, hm, hmaps⟩ := hs.maps
  have hbind : m.cgToPolicy.lookup s.cgroup = some id := by rw [← hid, hmaps]; rfl
  have hset : m.policySettings id = some st := by rw [← hst, hmaps]
  obtain ⟨key, name, hg, hrep⟩ := (h.maps m hm).bound _ id hbind
  have hrules := (h.maps m hm).rules key name id hg
  obtain ⟨wp, rules, hwp, hkey, hcont, rfl⟩ := hrules.settings st hset
  have hfrom : FromRules ops key name s.maps id := by
    rw [hmaps]
    exact ⟨hrules.values, hrules.settings⟩
  exact ⟨key, name, id, wp, rules, ⟨hid, hg, hfrom, hwp, hkey, hcont, hst⟩, hrep,
    hrec.decode hs.cgroup (.inr ⟨wp.mode, Mode.fromUint8_toUInt8 wp.mode, rfl⟩)⟩

/-- **Attribution.** A violation that is filed names the policy and the container whose rules the
exec was judged by, however long ago that was. -/
theorem violationOf_info (hinv : Inventory (ops.flatMap Op.reports)) (hpods : PodsAgree ops)
    (h : Audited ops a) (hs : Genuine a.resolver.world s)
    (hmon : (enforceCgroupPolicy s.exec s.maps s.evt).monitoring = some s.record)
    (he : processRingbufEvent s.record = .event e)
    (hinfo : getKubeProcessInfo env opts e a.resolver = .ok info) :
    ViolationOf ops a.log s (namespacedName info.ns info.policyName) info.containerName
      info.executablePath e.mode info.foreignRoot := by
  obtain ⟨key, name, id, wp, rules, hj, hrep, ⟨reason, hskip⟩ | ⟨path, hev⟩⟩ :=
    judged_of_sent h hs hmon
  · exact absurd (hskip.symm.trans he) (by simp)
  · obtain rfl := Decoded.event.inj (hev.symm.trans he)
    obtain ⟨⟨pod, ci, hpod, hns, hpn, hci, hname, hcg⟩, hpath, hforeign⟩ :=
      report_of_info hpods h hinfo
    obtain ⟨hpk, hcn⟩ := Reported.unique hinv hpods hrep hpod hci hcg
    have hfile : namespacedName info.ns info.policyName = key := by
      rw [← hns, ← hpn]
      exact hpk
    rw [hfile, ← hname, hcn]
    exact ⟨⟨id, wp, rules, hj, rfl⟩, ⟨_, he, hpath.symm⟩, hforeign⟩

theorem learnedFrom_info (hpods : PodsAgree ops) (h : Audited ops a)
    (hs : Genuine a.resolver.world s)
    (hexec : (enforceCgroupPolicy s.exec s.maps s.evt).execve = some s.record)
    (he : processRingbufEvent s.record = .event e)
    (hinfo : getKubeProcessInfo env opts e a.resolver = .ok info) : LearnedFrom ops s info := by
  obtain ⟨hid, hrec⟩ := execve_recordOf hexec
  rcases hrec.decode hs.cgroup (.inl ⟨rfl, rfl⟩) with ⟨reason, hskip⟩ | ⟨path, hev⟩
  · exact absurd (hskip.symm.trans he) (by simp)
  · obtain rfl := Decoded.event.inj (hev.symm.trans he)
    obtain ⟨hreport, hpath, hforeign⟩ := report_of_info hpods h hinfo
    exact ⟨hid, hreport, ⟨_, he, hpath.symm⟩, hforeign⟩

end

/-! ## What the scraper changes -/

variable {action : String}

namespace EventScraper

variable {env : Env} {opts : Options} {e : ProcessEvent} {r : Resolver}

@[simp] theorem log_violationBuffer (line : LogLine) (es : EventScraper) :
    (es.log line).violationBuffer = es.violationBuffer := rfl

@[simp] theorem log_enqueued (line : LogLine) (es : EventScraper) :
    (es.log line).enqueued = es.enqueued := rfl

@[simp] theorem log_emitted (line : LogLine) (es : EventScraper) :
    (es.log line).emitted = es.emitted := rfl

theorem warnBufferFull_frame (allow : Bool) (es : EventScraper) :
    (es.warnBufferFull allow).violationBuffer = es.violationBuffer ∧
    (es.warnBufferFull allow).enqueued = es.enqueued ∧
    (es.warnBufferFull allow).emitted = es.emitted := by
  unfold warnBufferFull
  repeat' split
  all_goals simp

theorem reportViolation_frame (opts : Options) (now : Time) (allow : Bool)
    (info : KubeProcessInfo) (action : String) (es : EventScraper) :
    (es.reportViolation opts now allow info action).violationBuffer
      = (es.violationBuffer.record (violationRecord opts now info action)).2 ∧
    (es.reportViolation opts now allow info action).enqueued = es.enqueued ∧
    (es.reportViolation opts now allow info action).emitted = es.emitted := by
  unfold reportViolation
  simp only
  split
  · exact warnBufferFull_frame allow _
  · exact ⟨rfl, rfl, rfl⟩

theorem emitViolationEvent_frame (opts : Options) (now : Time) (info : KubeProcessInfo)
    (action : String) (es : EventScraper) :
    (es.emitViolationEvent opts now info action).violationBuffer = es.violationBuffer ∧
    (es.emitViolationEvent opts now info action).enqueued = es.enqueued := by
  unfold emitViolationEvent
  split <;> exact ⟨rfl, rfl⟩

theorem mem_emitViolationEvent {now : Time} {es : EventScraper} {v : ViolationEvent}
    (h : v ∈ (es.emitViolationEvent opts now info action).emitted) :
    v ∈ es.emitted ∨ namespacedName info.ns info.policyName = v.ns ++ "/" ++ v.policyName ∧
      v.containerName = info.containerName ∧ v.exePath = info.executablePath ∧
      v.action = action ∧ v.foreignRoot = info.foreignRoot := by
  unfold emitViolationEvent at h
  split at h
  · exact .inl h
  · rcases List.mem_append.mp h with hold | hnew
    · exact .inl hold
    · obtain rfl := List.mem_singleton.mp hnew
      exact .inr ⟨rfl, rfl, rfl, rfl, rfl⟩

theorem fileViolation_frame (opts : Options) (clock : Clock) (info : KubeProcessInfo)
    (action : String) (es : EventScraper) :
    (es.fileViolation opts clock info action).violationBuffer
      = (es.violationBuffer.record (violationRecord opts clock.recorded info action)).2 ∧
    (es.fileViolation opts clock info action).enqueued = es.enqueued ∧
    ∀ v ∈ (es.fileViolation opts clock info action).emitted,
      v ∈ es.emitted ∨ namespacedName info.ns info.policyName = v.ns ++ "/" ++ v.policyName ∧
        v.containerName = info.containerName ∧ v.exePath = info.executablePath ∧
        v.action = action ∧ v.foreignRoot = info.foreignRoot := by
  unfold fileViolation
  simp only
  generalize hes : (if info.policyName = "" then
    es.log (.missingPolicyLabel info.podName info.ns) else es) = es'
  have hes' : es'.violationBuffer = es.violationBuffer ∧ es'.enqueued = es.enqueued ∧
      es'.emitted = es.emitted := by
    rw [← hes]
    split <;> simp
  obtain ⟨hb, hq, hm⟩ := reportViolation_frame opts clock.recorded clock.allow info action
    (es'.emitViolationEvent opts clock.emitted info action)
  obtain ⟨hb', hq'⟩ := emitViolationEvent_frame opts clock.emitted info action es'
  refine ⟨?_, ?_, fun v hv => ?_⟩
  · rw [hb, hb', hes'.1]
  · rw [hq, hq', hes'.2.1]
  · rw [hm] at hv
    rw [← hes'.2.2]
    exact mem_emitViolationEvent hv

end EventScraper

/-! ## The invariant -/

section

variable {env : Env} {opts : Options} {ops : List Op} {a : Agent}

/-- The violation that is reported is one that was judged. -/
def Rightful (ops : List Op) (log : List Grant) (sent : List Sent) (key : NamespacedPolicyName)
    (name : ContainerName) (path : Bytes) (action : String) (foreign : Bool) : Prop :=
  ∃ s ∈ sent, ViolationOf ops log s key name path action foreign

structure Piped (ops : List Op) (a : Agent) : Prop where
  audited : Audited ops a.audit
  live : a.panicked = false
  execve : ∀ s ∈ a.ringbufExecve, s ∈ a.sentExecve
  monitoring : ∀ s ∈ a.ringbufMonitoring, s ∈ a.sentMonitoring
  sentExecve : ∀ s ∈ a.sentExecve, Genuine a.audit.resolver.world s ∧
    (enforceCgroupPolicy s.exec s.maps s.evt).execve = some s.record
  sentMonitoring : ∀ s ∈ a.sentMonitoring, Genuine a.audit.resolver.world s ∧
    (enforceCgroupPolicy s.exec s.maps s.evt).monitoring = some s.record
  reported : ∀ v ∈ a.reported, Rightful ops a.audit.log a.sentMonitoring v.policyName
    v.containerName v.executablePath v.action v.foreignRoot
  emitted : ∀ v ∈ a.scraper.emitted, Rightful ops a.audit.log a.sentMonitoring
    (v.ns ++ "/" ++ v.policyName) v.containerName v.exePath v.action v.foreignRoot
  learned : ∀ info ∈ a.scraper.enqueued, ∃ s ∈ a.sentExecve, LearnedFrom ops s info

theorem ViolationOf.mono {log log' : List Grant} (hsub : ∀ g ∈ log, g ∈ log') {path : Bytes}
    {foreign : Bool} (h : ViolationOf ops log s key name path action foreign) :
    ViolationOf ops log' s key name path action foreign := by
  obtain ⟨⟨id, wp, rules, hj, hact⟩, hpath, hforeign⟩ := h
  exact ⟨⟨id, wp, rules, { hj with granted := hsub _ hj.granted }, hact⟩, hpath, hforeign⟩

theorem Rightful.mono {log log' : List Grant} {sent sent' : List Sent} {path : Bytes}
    {foreign : Bool} (h : Rightful ops log sent key name path action foreign)
    (hlog : ∀ g ∈ log, g ∈ log') (hsent : ∀ s ∈ sent, s ∈ sent') :
    Rightful ops log' sent' key name path action foreign := by
  obtain ⟨s, hs, hv⟩ := h
  exact ⟨s, hsent s hs, hv.mono hlog⟩

theorem Genuine.mono {w w' : World} (hsub : ∀ m ∈ w.history, m ∈ w'.history) (h : Genuine w s) :
    Genuine w' s := by
  obtain ⟨⟨m, hm, hmaps⟩, hcg⟩ := h
  exact ⟨⟨m, hsub m hm, hmaps⟩, hcg⟩

theorem Piped.start : Piped ops {} where
  audited := Audited.init
  live := rfl
  execve s hs := absurd hs (by simp)
  monitoring s hs := absurd hs (by simp)
  sentExecve s hs := absurd hs (by simp)
  sentMonitoring s hs := absurd hs (by simp)
  reported v hv := absurd hv (by
    show v ∉ [] ++ List.map _ (Ring.contents Violationbuf.newBuffer)
    simp [Ring.contents, Violationbuf.newBuffer])
  emitted v hv := absurd hv (by simp)
  learned info hinfo := absurd hinfo (by simp)

theorem Piped.resolver (hpods : PodsAgree ops) (h : Piped ops a) {op : Op} (hop : op ∈ ops) :
    Piped ops { a with audit := a.audit.step env op } := by
  obtain ⟨hlog, hhist⟩ := audit_grows env h.audited.ids op
  exact {
    audited := h.audited.step hpods hop
    live := h.live
    execve := h.execve
    monitoring := h.monitoring
    sentExecve := fun s hs => ⟨(h.sentExecve s hs).1.mono hhist, (h.sentExecve s hs).2⟩
    sentMonitoring := fun s hs => ⟨(h.sentMonitoring s hs).1.mono hhist, (h.sentMonitoring s hs).2⟩
    reported := fun v hv => (h.reported v hv).mono hlog fun _ hs => hs
    emitted := fun v hv => (h.emitted v hv).mono hlog fun _ hs => hs
    learned := h.learned }

theorem mem_submitted {x : Exec} {evt : ProcessEvt} {maps : BpfMaps} {r : Option Bytes}
    (h : s ∈ (r.map fun r => (⟨x, maps, evt, r⟩ : Sent)).toList) :
    s.exec = x ∧ s.maps = maps ∧ s.evt = evt ∧ r = some s.record := by
  cases r with
  | none => simp at h
  | some r =>
    obtain rfl : s = ⟨x, maps, evt, r⟩ := by simpa using h
    exact ⟨rfl, rfl, rfl, rfl⟩

theorem Piped.exec (h : Piped ops a) (x : Exec) (evt : ProcessEvt)
    (tracker : CgroupID → Option UInt64) (lag : Nat) :
    Piped ops (a.exec x evt (Agent.found tracker lag a.audit.resolver.world)) where
  audited := h.audited
  live := h.live
  execve s hs := by
    rcases List.mem_append.mp hs with hold | hnew
    · exact List.mem_append_left _ (h.execve s hold)
    · exact List.mem_append_right _ hnew
  monitoring s hs := by
    rcases List.mem_append.mp hs with hold | hnew
    · exact List.mem_append_left _ (h.monitoring s hold)
    · exact List.mem_append_right _ hnew
  sentExecve s hs := by
    rcases List.mem_append.mp hs with hold | hnew
    · exact h.sentExecve s hold
    · obtain ⟨hx, hm, hevt, hr⟩ := mem_submitted hnew
      obtain ⟨sx, sm, sevt, sr⟩ := s
      subst hx hm hevt
      exact ⟨genuine_found .., hr⟩
  sentMonitoring s hs := by
    rcases List.mem_append.mp hs with hold | hnew
    · exact h.sentMonitoring s hold
    · obtain ⟨hx, hm, hevt, hr⟩ := mem_submitted hnew
      obtain ⟨sx, sm, sevt, sr⟩ := s
      subst hx hm hevt
      exact ⟨genuine_found .., hr⟩
  reported v hv := (h.reported v hv).mono (fun _ hg => hg) fun _ hs => List.mem_append_left _ hs
  emitted v hv := (h.emitted v hv).mono (fun _ hg => hg) fun _ hs => List.mem_append_left _ hs
  learned info hinfo := by
    obtain ⟨s, hs, hl⟩ := h.learned info hinfo
    exact ⟨s, List.mem_append_left _ hs, hl⟩

theorem Piped.consume {f : ProcessEvent → EventScraper → EventScraper} (h : Piped ops a)
    (hpanic : ∀ reason, processRingbufEvent s.record ≠ .panicked reason)
    (hevent : ∀ e, processRingbufEvent s.record = .event e →
      Piped ops { a with scraper := f e a.scraper }) : Piped ops (a.consume s f) := by
  unfold Agent.consume
  cases hdec : processRingbufEvent s.record with
  | event e => exact hevent e hdec
  | skipped reason =>
    exact ⟨h.audited, h.live, h.execve, h.monitoring, h.sentExecve, h.sentMonitoring, h.reported,
      h.emitted, h.learned⟩
  | panicked reason => exact absurd hdec (hpanic reason)

theorem Piped.scraper (h : Piped ops a) {es : EventScraper}
    (hbuffer : ∀ rec ∈ es.violationBuffer.contents, rec ∈ a.scraper.violationBuffer.contents ∨
      Rightful ops a.audit.log a.sentMonitoring rec.policy rec.containerName rec.exePath rec.action
        rec.foreignRoot)
    (hemitted : ∀ v ∈ es.emitted, v ∈ a.scraper.emitted ∨
      Rightful ops a.audit.log a.sentMonitoring (v.ns ++ "/" ++ v.policyName) v.containerName
        v.exePath v.action v.foreignRoot)
    (hlearned : ∀ info ∈ es.enqueued, info ∈ a.scraper.enqueued ∨
      ∃ s ∈ a.sentExecve, LearnedFrom ops s info) : Piped ops { a with scraper := es } where
  audited := h.audited
  live := h.live
  execve := h.execve
  monitoring := h.monitoring
  sentExecve := h.sentExecve
  sentMonitoring := h.sentMonitoring
  reported v hv := by
    rcases List.mem_append.mp hv with hold | hnew
    · exact h.reported v (List.mem_append_left _ hold)
    · obtain ⟨rec, hrec, rfl⟩ := List.mem_map.mp hnew
      rcases hbuffer rec hrec with hwas | hright
      · exact h.reported _ (List.mem_append_right _ (List.mem_map.mpr ⟨rec, hwas, rfl⟩))
      · exact hright
  emitted v hv := (hemitted v hv).elim (h.emitted v) id
  learned info hinfo := (hlearned info hinfo).elim (h.learned info) id

theorem Piped.learning (hpods : PodsAgree ops) (h : Piped ops a) :
    Piped ops (a.step env opts .learning) := by
  unfold Agent.step
  cases hring : a.ringbufExecve with
  | nil => simpa only [hring] using h
  | cons s rest =>
    have hs : s ∈ a.sentExecve := h.execve s (hring ▸ List.mem_cons_self)
    obtain ⟨hgen, hexec⟩ := h.sentExecve s hs
    have hpop : Piped ops { a with ringbufExecve := rest } := { h with
      execve := fun s' hs' => h.execve s' (hring ▸ List.mem_cons_of_mem s hs') }
    refine hpop.consume (fun reason hpan => ?_) fun e he => ?_
    · obtain ⟨_, hrec⟩ := execve_recordOf hexec
      rcases hrec.decode hgen.cgroup (.inl ⟨rfl, rfl⟩) with ⟨_, hdec⟩ | ⟨_, hdec⟩
      all_goals exact absurd (hdec.symm.trans hpan) (by simp)
    · unfold EventScraper.onLearning
      cases hinfo : getKubeProcessInfo env opts e a.audit.resolver with
      | error line =>
        exact hpop.scraper (fun _ hv => .inl hv) (fun _ hv => .inl hv) (fun _ hv => .inl hv)
      | ok info =>
        refine hpop.scraper (fun _ hv => .inl hv) (fun _ hv => .inl hv) fun info' hmem => ?_
        rcases List.mem_append.mp hmem with hold | hnew
        · exact .inl hold
        · obtain rfl := List.mem_singleton.mp hnew
          exact .inr ⟨s, hs, learnedFrom_info hpods h.audited hgen hexec he hinfo⟩

theorem Piped.monitoringStep (hinv : Inventory (ops.flatMap Op.reports)) (hpods : PodsAgree ops)
    (h : Piped ops a) (clock : EventScraper.Clock) :
    Piped ops (a.step env opts (.monitoring clock)) := by
  unfold Agent.step
  cases hring : a.ringbufMonitoring with
  | nil => simpa only [hring] using h
  | cons s rest =>
    have hs : s ∈ a.sentMonitoring := h.monitoring s (hring ▸ List.mem_cons_self)
    obtain ⟨hgen, hmon⟩ := h.sentMonitoring s hs
    have hpop : Piped ops { a with ringbufMonitoring := rest } := { h with
      monitoring := fun s' hs' => h.monitoring s' (hring ▸ List.mem_cons_of_mem s hs') }
    refine hpop.consume (fun reason hpan => ?_) fun e he => ?_
    · obtain ⟨_, _, _, _, _, _, _, ⟨_, hdec⟩ | ⟨_, hdec⟩⟩ := judged_of_sent h.audited hgen hmon
      all_goals exact absurd (hdec.symm.trans hpan) (by simp)
    · unfold EventScraper.onMonitoring
      cases hinfo : getKubeProcessInfo env opts e a.audit.resolver with
      | error line =>
        exact hpop.scraper (fun _ hv => .inl hv) (fun _ hv => .inl hv) (fun _ hv => .inl hv)
      | ok info =>
        have hv := violationOf_info hinv hpods h.audited hgen hmon he hinfo
        obtain ⟨hbuf, hq, hem⟩ := a.scraper.fileViolation_frame opts clock info e.mode
        refine hpop.scraper (fun rec hrec => ?_) (fun v hmem => ?_) fun info' hmem => ?_
        · rw [hbuf, Ring.contents_record] at hrec
          rcases List.mem_cons.mp (List.mem_of_mem_take hrec) with rfl | hold
          · exact .inr ⟨s, hs, hv⟩
          · exact .inl hold
        · rcases hem v hmem with hold | ⟨hkey, hname, hpath, hact, hfor⟩
          · exact .inl hold
          · rw [← hkey, hname, hpath, hact, hfor]
            exact .inr ⟨s, hs, hv⟩
        · exact .inl (hq ▸ hmem)

theorem Piped.scrape (h : Piped ops a) : Piped ops (a.step env opts .scrape) where
  audited := h.audited
  live := h.live
  execve := h.execve
  monitoring := h.monitoring
  sentExecve := h.sentExecve
  sentMonitoring := h.sentMonitoring
  reported v hv := by
    refine h.reported v ?_
    -- the answer is what the buffer held
    have hdrain : (a.step env opts .scrape).reported = a.reported := by
      unfold Agent.reported Agent.step EventScraper.scrape Violationbuf.scrapeViolations
      simp only [Ring.drain_fst, Ring.contents_drain, List.map_nil, List.append_nil]
    exact hdrain ▸ hv
  emitted := h.emitted
  learned := h.learned

theorem Piped.step (hinv : Inventory (ops.flatMap Op.reports)) (hpods : PodsAgree ops)
    (h : Piped ops a) {op : AgentOp} (hop : ∀ o, op = .resolver o → o ∈ ops) :
    Piped ops (a.step env opts op) := by
  cases op with
  | resolver o => exact h.resolver hpods (hop o rfl)
  | exec x evt tracker lag => exact h.exec x evt tracker lag
  | learning => exact h.learning hpods
  | monitoring clock => exact h.monitoringStep hinv hpods clock
  | scrape => exact h.scrape

end

theorem mem_resolverOps {ops : List AgentOp} {o : Op} :
    o ∈ resolverOps ops ↔ .resolver o ∈ ops := by
  unfold resolverOps
  rw [List.mem_filterMap]
  constructor
  · rintro ⟨op, hop, ho⟩
    cases op with
    | resolver o' => exact Option.some.inj ho ▸ hop
    | _ => exact absurd ho (by simp)
  · intro ho
    exact ⟨_, ho, rfl⟩

theorem piped_run {env : Env} {opts : Options} {ops : List AgentOp}
    (hinv : Inventory ((resolverOps ops).flatMap Op.reports))
    (hpods : PodsAgree (resolverOps ops)) :
    Piped (resolverOps ops) (run (Agent.step env opts) ops {}) :=
  run_inv (C := fun _ op => op ∈ ops)
    (fun _ _ h hop => h.step hinv hpods fun _ ho => mem_resolverOps.mpr (ho ▸ hop)) Piped.start
    (along_of_forall fun _ hop => hop)

/-- **A violation is reported under the policy that the exec was judged by.** In every run of an
agent, whatever fails and in whatever order policies, pods, execs, reads and scrapes come: the agent
does not panic over a record, and each violation that the controller is answered, or will be, is of
an exec that was judged, when the hook saw it, by the rules of the container and the policy that the
violation names, with the action those rules had. -/
theorem violations_reported_under_judge (env : Env) (opts : Options) (ops : List AgentOp)
    (hinv : Inventory ((resolverOps ops).flatMap Op.reports))
    (hpods : PodsAgree (resolverOps ops)) :
    let a := run (Agent.step env opts) ops {}
    a.panicked = false ∧
    (∀ v ∈ a.reported, Rightful (resolverOps ops) a.audit.log a.sentMonitoring v.policyName
      v.containerName v.executablePath v.action v.foreignRoot) ∧
    (∀ v ∈ a.scraper.emitted, Rightful (resolverOps ops) a.audit.log a.sentMonitoring
      (v.ns ++ "/" ++ v.policyName) v.containerName v.exePath v.action v.foreignRoot) ∧
    ∀ info ∈ a.scraper.enqueued, ∃ s ∈ a.sentExecve, LearnedFrom (resolverOps ops) s info := by
  intro a
  have h : Piped (resolverOps ops) a := piped_run hinv hpods
  exact ⟨h.live, h.reported, h.emitted, h.learned⟩

namespace Sample

open RuntimeEnforcer.Sample

def opts : Options where
  nodeName := "node"
  violationLogger := true
  workload := fun _ => ("web", .deployment)

def tick : EventScraper.Clock := ⟨Time.zero, Time.zero, true⟩

/-- The container of cgroup 7 may run `/bin/sh` and runs `/a`. Before the record is read the policy
is deleted, which fails half way, and created again. -/
def late : List AgentOp :=
  shBound.map .resolver ++
    [.exec (branchExec [0x61] 1 7) zeroEvt (fun cg => if cg = 7 then some 7 else none) 0] ++
    anew.map .resolver ++ [.monitoring tick, .scrape]

theorem violations_reported_under_judge_late :
    ∃ v ∈ (run (Agent.step (.failsAt 6) opts) late {}).reported,
      v.policyName = "default/web" ∧ v.action = "protect" ∧
      Rightful (shBound ++ anew) (run (Agent.step (.failsAt 6) opts) late {}).audit.log
        (run (Agent.step (.failsAt 6) opts) late {}).sentMonitoring v.policyName v.containerName
        v.executablePath v.action v.foreignRoot := by
  have hshown : (run (Agent.step (.failsAt 6) opts) late {}).reported.map
      (fun v => (v.policyName, v.action)) = [("default/web", "protect")] := by decide +kernel
  have hone : ("default/web", "protect") ∈ (run (Agent.step (.failsAt 6) opts) late {}).reported.map
      (fun v => (v.policyName, v.action)) := hshown ▸ List.mem_singleton_self _
  obtain ⟨v, hv, hkey⟩ := List.mem_map.mp hone
  obtain ⟨hpolicy, haction⟩ := Prod.mk.inj hkey
  have h := violations_reported_under_judge (.failsAt 6) opts late (by decide) podsAgree_anew
  exact ⟨v, hv, hpolicy, haction, h.2.1 v hv⟩

end Sample

end RuntimeEnforcer.Eventscraper
