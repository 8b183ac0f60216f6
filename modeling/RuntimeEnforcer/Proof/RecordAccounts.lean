import RuntimeEnforcer.Proof.Pipeline

/-!
# No record disappears

What the hook has submitted is waiting in its ring buffer, or userspace has logged that it could not
be parsed or that its cgroup is no container, or it was handed on: an exec to the learning
controller, a violation to the buffer. A violation that the buffer overwrites is a line of the log,
unless the log's limiter holds it back; then it is counted, and the count comes with the next line.

The two ring buffers are queues. So the records that were ever submitted are those that were read,
in that order, followed by those that wait, and what has come of an agent is told by one list for
each queue, of the records that were read with the `Fate` of each. Everything the agent keeps is
then read off the two lists: what went to the learning controller is what the first one has handed
on, and what the controller was answered, what the buffer still holds and what it has overwritten
are together what the second one has handed on. Nothing is in two places and nothing is nowhere.

There is no condition on the runs. A record over which userspace panics has that as its fate; that
the hook submits no such record is `Piped.live`.
-/

set_option autoImplicit false

namespace RuntimeEnforcer.Eventscraper

open Lib Hook Eventhandler
open Violationbuf (ViolationRecord maxBufferEntries)
open Api (Time)

/-! ## What comes of a record -/

/-- What userspace has made of a record: something that it handed on, an error of the decoder, a
line of the log for a cgroup that is no container, or a panic. -/
inductive Fate (α : Type)
  | handedOn (x : α)
  | unparsed (reason : String)
  | unattributed (line : LogLine)
  | panicked

namespace Fate

variable {α : Type}

def value : Fate α → Option α
  | .handedOn x => some x
  | _ => none

def reason : Fate α → Option String
  | .unparsed reason => some reason
  | _ => none

def line : Fate α → Option LogLine
  | .unattributed line => some line
  | _ => none

def isPanic : Fate α → Bool
  | .panicked => true
  | _ => false

end Fate

/-- The fate is one of this record. What is handed on is made of the event that the record decodes
to, as `made` says. -/
inductive Became {α : Type} (made : ProcessEvent → α → Prop) (s : Sent) : Fate α → Prop
  | handedOn {e : ProcessEvent} {x : α} (hdecode : processRingbufEvent s.record = .event e)
    (hmade : made e x) : Became made s (.handedOn x)
  | unparsed {reason : String} (hdecode : processRingbufEvent s.record = .skipped reason) :
    Became made s (.unparsed reason)
  | unattributed {e : ProcessEvent} (hdecode : processRingbufEvent s.record = .event e)
    (err : ViewErr) :
    Became made s (.unattributed (.failedToGetPodInfo e.cgTrackerID e.exePath err))
  | panicked {reason : String} (hdecode : processRingbufEvent s.record = .panicked reason) :
    Became made s .panicked

/-- The exec of the event, as the learning controller is told of it. -/
def Learnable (e : ProcessEvent) (info : KubeProcessInfo) : Prop :=
  info.executablePath = e.exePath ∧ info.foreignRoot = e.foreignRoot

/-- The violation of the event, as it goes into the buffer. -/
def Reportable (e : ProcessEvent) (rec : ViolationRecord) : Prop :=
  rec.exePath = e.exePath ∧ rec.foreignRoot = e.foreignRoot ∧ rec.action = e.mode

theorem made_of_info {env : Env} {opts : Options} {e : ProcessEvent} {r : Resolver}
    {info : KubeProcessInfo} (h : getKubeProcessInfo env opts e r = .ok info) :
    Learnable e info := by
  unfold getKubeProcessInfo at h
  cases hview : getContainerView env e.cgTrackerID r with
  | error err => simp [hview] at h
  | ok v =>
    rw [hview] at h
    cases h
    exact ⟨rfl, rfl⟩

theorem line_of_error {env : Env} {opts : Options} {e : ProcessEvent} {r : Resolver}
    {line : LogLine} (h : getKubeProcessInfo env opts e r = .error line) :
    ∃ err, line = .failedToGetPodInfo e.cgTrackerID e.exePath err := by
  unfold getKubeProcessInfo at h
  cases hview : getContainerView env e.cgTrackerID r with
  | ok v => simp [hview] at h
  | error err =>
    rw [hview] at h
    cases h
    exact ⟨err, rfl⟩

/-- The records that were submitted are those that were read, each with its fate, and those that
wait. -/
structure Consumed {α : Type} (made : ProcessEvent → α → Prop) (sent waiting : List Sent)
    (fates : List (Sent × Fate α)) : Prop where
  order : sent = fates.map Prod.fst ++ waiting
  became : ∀ x ∈ fates, Became made x.1 x.2

section

variable {α : Type} {made : ProcessEvent → α → Prop} {sent waiting : List Sent}
  {fates : List (Sent × Fate α)}

theorem Consumed.submit (h : Consumed made sent waiting fates) (new : List Sent) :
    Consumed made (sent ++ new) (waiting ++ new) fates where
  order := by rw [h.order, List.append_assoc]
  became := h.became

theorem Consumed.next {s : Sent} {rest : List Sent} (h : Consumed made sent (s :: rest) fates)
    {fate : Fate α} (hfate : Became made s fate) :
    Consumed made sent rest (fates ++ [(s, fate)]) where
  order := by simp [h.order]
  became x hx := by
    rcases List.mem_append.mp hx with hx | hx
    · exact h.became x hx
    · rw [List.mem_singleton.mp hx]
      exact hfate

end

/-! ## The log -/

/-- The overwritten violations that a line of the log stands for. -/
def LogLine.overwritten : LogLine → Nat
  | .suppressed count _ => count
  | .warn _ => 1
  | _ => 0

/-- The line says that a cgroup could not be attributed. -/
def LogLine.isUnattributed : LogLine → Bool
  | .failedToGetPodInfo .. => true
  | _ => false

namespace EventScraper

/-- The violations that were overwritten, according to the log and to the limiter. -/
def overwritten (es : EventScraper) : Nat :=
  (es.logs.map LogLine.overwritten).sum + es.suppressed

def unattributed (es : EventScraper) : List LogLine := es.logs.filter LogLine.isUnattributed

theorem overwritten_log (line : LogLine) (es : EventScraper) :
    (es.log line).overwritten = es.overwritten + line.overwritten := by
  unfold overwritten log
  simp only [List.map_append, List.map_cons, List.map_nil, List.sum_append, List.sum_cons,
    List.sum_nil]
  omega

theorem unattributed_log (line : LogLine) (es : EventScraper) :
    (es.log line).unattributed
      = es.unattributed ++ if line.isUnattributed then [line] else [] := by
  unfold unattributed log
  rw [List.filter_append, List.filter_singleton]
  cases line.isUnattributed <;> rfl

/-- A warning stands for one violation, whether it is logged now or held back. -/
theorem overwritten_warnBufferFull (allow : Bool) (es : EventScraper) :
    (es.warnBufferFull allow).overwritten = es.overwritten + 1 := by
  unfold warnBufferFull
  split
  · exact (Nat.add_assoc _ _ _).symm
  · split
    · -- the count that is flushed is the one that is reset
      rw [overwritten_log, overwritten_log]
      unfold overwritten LogLine.overwritten
      simp only
      omega
    · exact overwritten_log _ es

theorem unattributed_warnBufferFull (allow : Bool) (es : EventScraper) :
    (es.warnBufferFull allow).unattributed = es.unattributed := by
  unfold warnBufferFull
  split
  · rfl
  · split
    · rw [unattributed_log, unattributed_log]
      simp [LogLine.isUnattributed, unattributed]
    · rw [unattributed_log]
      simp [LogLine.isUnattributed]

/-- What a record pushes out of the buffer: the oldest one, if the buffer is full. -/
def pushedOut (es : EventScraper) (rec : ViolationRecord) : List ViolationRecord :=
  (rec :: es.violationBuffer.contents).drop maxBufferEntries

theorem length_pushedOut (rec : ViolationRecord) (es : EventScraper) :
    (es.pushedOut rec).length = if (es.violationBuffer.record rec).1 then 1 else 0 := by
  have hlen := es.violationBuffer.length_contents_record rec
  rw [Ring.contents_record, List.length_take, List.length_cons] at hlen
  rw [pushedOut, List.length_drop, List.length_cons]
  omega

theorem log_reportViolation (opts : Options) (now : Time) (allow : Bool)
    (info : KubeProcessInfo) (action : String) (es : EventScraper) :
    (es.reportViolation opts now allow info action).overwritten
      = es.overwritten + (es.pushedOut (violationRecord opts now info action)).length ∧
    (es.reportViolation opts now allow info action).unattributed = es.unattributed := by
  rw [length_pushedOut]
  unfold reportViolation
  simp only
  split
  · rw [overwritten_warnBufferFull, unattributed_warnBufferFull]
    exact ⟨rfl, rfl⟩
  · exact ⟨rfl, rfl⟩

/-- **A violation that is filed is in the buffer, and what it pushes out is accounted for by the
log.** -/
theorem log_fileViolation (opts : Options) (clock : Clock) (info : KubeProcessInfo)
    (action : String) (es : EventScraper) :
    (es.fileViolation opts clock info action).overwritten
      = es.overwritten + (es.pushedOut (violationRecord opts clock.recorded info action)).length ∧
    (es.fileViolation opts clock info action).unattributed = es.unattributed := by
  unfold fileViolation
  simp only
  generalize hes : (if info.policyName = "" then
    es.log (.missingPolicyLabel info.podName info.ns) else es) = es'
  have hes' : es'.overwritten = es.overwritten ∧ es'.unattributed = es.unattributed ∧
      es'.violationBuffer = es.violationBuffer := by
    rw [← hes]
    split
    · refine ⟨overwritten_log _ es, ?_, rfl⟩
      rw [unattributed_log]
      simp [LogLine.isUnattributed]
    · exact ⟨rfl, rfl, rfl⟩
  have hemit : (es'.emitViolationEvent opts clock.emitted info action).overwritten
        = es'.overwritten ∧
      (es'.emitViolationEvent opts clock.emitted info action).unattributed = es'.unattributed ∧
      (es'.emitViolationEvent opts clock.emitted info action).violationBuffer
        = es'.violationBuffer := by
    unfold emitViolationEvent
    split <;> exact ⟨rfl, rfl, rfl⟩
  obtain ⟨hover, hun⟩ := log_reportViolation opts clock.recorded clock.allow info action
    (es'.emitViolationEvent opts clock.emitted info action)
  unfold pushedOut at hover ⊢
  rw [hover, hun, hemit.1, hemit.2.1, hemit.2.2, hes'.1, hes'.2.1, hes'.2.2]
  exact ⟨rfl, rfl⟩

end EventScraper

/-! ## What reading a record does -/

/-- The errors that are logged for a record of this fate. -/
structure Notes {α : Type} (fate : Fate α) (a a' : Agent) : Prop where
  unparsed : a'.unparsed = a.unparsed ++ fate.reason.toList
  unattributed : a'.scraper.unattributed = a.scraper.unattributed ++ fate.line.toList
  panicked : a'.panicked = (a.panicked || fate.isPanic)

/-- From `a` to `a'` the learning record `s` is read. -/
structure ReadsLearning (s : Sent) (fate : Fate KubeProcessInfo) (a a' : Agent) : Prop where
  became : Became Learnable s fate
  notes : Notes fate a a'
  sent : a'.sentExecve = a.sentExecve
  waiting : a.ringbufExecve = s :: a'.ringbufExecve
  enqueued : a'.scraper.enqueued = a.scraper.enqueued ++ fate.value.toList
  monitoring : a'.sentMonitoring = a.sentMonitoring ∧ a'.ringbufMonitoring = a.ringbufMonitoring
  reported : a'.reported = a.reported
  overwritten : a'.scraper.overwritten = a.scraper.overwritten

/-- From `a` to `a'` the violation record `s` is read, and the buffer loses `pushed`. -/
structure ReadsViolation (s : Sent) (fate : Fate ViolationRecord) (pushed : List ViolationRecord)
    (a a' : Agent) : Prop where
  became : Became Reportable s fate
  notes : Notes fate a a'
  sent : a'.sentMonitoring = a.sentMonitoring
  waiting : a.ringbufMonitoring = s :: a'.ringbufMonitoring
  learning : a'.sentExecve = a.sentExecve ∧ a'.ringbufExecve = a.ringbufExecve
  enqueued : a'.scraper.enqueued = a.scraper.enqueued
  scraped : a'.scraped = a.scraped
  buffer : a'.scraper.violationBuffer.contents ++ pushed
    = fate.value.toList ++ a.scraper.violationBuffer.contents
  overwritten : a'.scraper.overwritten = a.scraper.overwritten + pushed.length

section

variable (env : Env) (opts : Options) {a : Agent} {s : Sent} {rest : List Sent}

/-- **Reading a learning record.** -/
theorem readsLearning_step (hring : a.ringbufExecve = s :: rest) :
    ∃ fate, ReadsLearning s fate a (a.step env opts .learning) := by
  have hstep : a.step env opts .learning = { a with ringbufExecve := rest }.consume s
      fun e es => es.onLearning env opts e a.audit.resolver := by
    simp only [Agent.step, hring]
  rw [hstep, Agent.consume]
  cases hdecode : processRingbufEvent s.record with
  | panicked reason =>
    exact ⟨.panicked, .panicked hdecode, ⟨by simp [Fate.reason], by simp [Fate.line],
      by simp [Fate.isPanic]⟩, rfl, hring, by simp [Fate.value], ⟨rfl, rfl⟩, rfl, rfl⟩
  | skipped reason =>
    exact ⟨.unparsed reason, .unparsed hdecode, ⟨rfl, by simp [Fate.line],
      by simp [Fate.isPanic]⟩, rfl, hring, by simp [Fate.value], ⟨rfl, rfl⟩, rfl, rfl⟩
  | event e =>
    simp only
    unfold EventScraper.onLearning
    cases hinfo : getKubeProcessInfo env opts e a.audit.resolver with
    | error line =>
      obtain ⟨err, rfl⟩ := line_of_error hinfo
      exact ⟨.unattributed _, .unattributed hdecode err, ⟨by simp [Fate.reason],
        EventScraper.unattributed_log _ _, by simp [Fate.isPanic]⟩, rfl, hring,
        by simp [Fate.value, EventScraper.log], ⟨rfl, rfl⟩, rfl, EventScraper.overwritten_log _ _⟩
    | ok info =>
      exact ⟨.handedOn info, .handedOn hdecode (made_of_info hinfo), ⟨by simp [Fate.reason],
        by simp [Fate.line, EventScraper.unattributed], by simp [Fate.isPanic]⟩, rfl, hring, rfl,
        ⟨rfl, rfl⟩, rfl, rfl⟩

/-- **Reading a violation record.** -/
theorem readsViolation_step (hring : a.ringbufMonitoring = s :: rest) (clock : EventScraper.Clock) :
    ∃ fate pushed, ReadsViolation s fate pushed a (a.step env opts (.monitoring clock)) := by
  have hstep : a.step env opts (.monitoring clock) = { a with ringbufMonitoring := rest }.consume s
      fun e es => es.onMonitoring env opts clock e a.audit.resolver := by
    simp only [Agent.step, hring]
  rw [hstep, Agent.consume]
  cases hdecode : processRingbufEvent s.record with
  | panicked reason =>
    exact ⟨.panicked, [], .panicked hdecode, ⟨by simp [Fate.reason], by simp [Fate.line],
      by simp [Fate.isPanic]⟩, rfl, hring, ⟨rfl, rfl⟩, rfl, rfl, by simp [Fate.value], rfl⟩
  | skipped reason =>
    exact ⟨.unparsed reason, [], .unparsed hdecode, ⟨rfl, by simp [Fate.line],
      by simp [Fate.isPanic]⟩, rfl, hring, ⟨rfl, rfl⟩, rfl, rfl, by simp [Fate.value], rfl⟩
  | event e =>
    simp only
    unfold EventScraper.onMonitoring
    cases hinfo : getKubeProcessInfo env opts e a.audit.resolver with
    | error line =>
      obtain ⟨err, rfl⟩ := line_of_error hinfo
      exact ⟨.unattributed _, [], .unattributed hdecode err, ⟨by simp [Fate.reason],
        EventScraper.unattributed_log _ _, by simp [Fate.isPanic]⟩, rfl, hring, ⟨rfl, rfl⟩, rfl,
        rfl, by simp [Fate.value, EventScraper.log], EventScraper.overwritten_log _ _⟩
    | ok info =>
      obtain ⟨hover, hun⟩ := a.scraper.log_fileViolation opts clock info e.mode
      obtain ⟨hbuf, hq, _⟩ := a.scraper.fileViolation_frame opts clock info e.mode
      obtain ⟨hpath, hforeign⟩ := made_of_info hinfo
      have hmade : Reportable e (EventScraper.violationRecord opts clock.recorded info e.mode) :=
        ⟨hpath, hforeign, rfl⟩
      refine ⟨.handedOn _, _, .handedOn hdecode hmade, ⟨by simp [Fate.reason],
        by simpa [Fate.line] using hun, by simp [Fate.isPanic]⟩, rfl, hring, ⟨rfl, rfl⟩, hq, rfl,
        ?_, hover⟩
      -- what is kept and what is pushed out make up the record and the old contents
      rw [hbuf, Ring.contents_record]
      exact List.take_append_drop _ _

end

/-! ## The accounts -/

/-- Everything the agent keeps, in terms of the records that were read: `learned` and `judged` are
those of the two ring buffers, each with its fate, and `lost` are the violations that the buffer has
overwritten, of which the log and its limiter only have the number. -/
structure Accounts (a : Agent) (learned : List (Sent × Fate KubeProcessInfo))
    (judged : List (Sent × Fate ViolationRecord)) (lost : List ViolationRecord) : Prop where
  learning : Consumed Learnable a.sentExecve a.ringbufExecve learned
  monitoring : Consumed Reportable a.sentMonitoring a.ringbufMonitoring judged
  enqueued : a.scraper.enqueued = learned.filterMap fun x => x.2.value
  reported : ((judged.filterMap fun x => x.2.value).map ViolationRecord.toProto).Perm
    (a.reported ++ lost.map ViolationRecord.toProto)
  overwritten : a.scraper.overwritten = lost.length
  unparsed : a.unparsed.Perm
    ((learned.filterMap fun x => x.2.reason) ++ judged.filterMap fun x => x.2.reason)
  unattributed : a.scraper.unattributed.Perm
    ((learned.filterMap fun x => x.2.line) ++ judged.filterMap fun x => x.2.line)
  panicked : a.panicked = ((learned.any fun x => x.2.isPanic) || judged.any fun x => x.2.isPanic)

section

variable {env : Env} {opts : Options} {a a' : Agent} {s : Sent}
  {learned : List (Sent × Fate KubeProcessInfo)} {judged : List (Sent × Fate ViolationRecord)}
  {lost pushed : List ViolationRecord}

theorem Accounts.start : Accounts {} [] [] [] := by
  refine ⟨⟨rfl, ?_⟩, ⟨rfl, ?_⟩, rfl, .refl _, rfl, .refl _, .refl _, rfl⟩
  all_goals exact fun x hx => absurd hx (by simp)

theorem filterMap_concat {α β : Type} (f : α → Option β) (l : List α) (x : α) :
    (l ++ [x]).filterMap f = l.filterMap f ++ (f x).toList := by
  cases hx : f x <;> simp [hx]

theorem perm_insert {α : Type} {l xs ys : List α} (h : l.Perm (xs ++ ys)) (zs : List α) :
    (l ++ zs).Perm (xs ++ zs ++ ys) := by
  refine (h.append_right zs).trans ?_
  rw [List.append_assoc, List.append_assoc]
  exact List.perm_append_comm.append_left xs

variable (h : Accounts a learned judged lost)

include h

theorem Accounts.exec (x : Exec) (evt : ProcessEvt) (maps : BpfMaps) :
    Accounts (a.exec x evt maps) learned judged lost :=
  { h with
    learning := h.learning.submit _
    monitoring := h.monitoring.submit _ }

theorem Accounts.learn {fate : Fate KubeProcessInfo} (hreads : ReadsLearning s fate a a') :
    Accounts a' (learned ++ [(s, fate)]) judged lost where
  learning := by
    have hlearning := h.learning
    rw [hreads.waiting] at hlearning
    rw [hreads.sent]
    exact hlearning.next hreads.became
  monitoring := by
    rw [hreads.monitoring.1, hreads.monitoring.2]
    exact h.monitoring
  enqueued := by rw [hreads.enqueued, h.enqueued, filterMap_concat]
  reported := by
    rw [hreads.reported]
    exact h.reported
  overwritten := hreads.overwritten.trans h.overwritten
  unparsed := by
    rw [hreads.notes.unparsed, filterMap_concat]
    exact perm_insert h.unparsed _
  unattributed := by
    rw [hreads.notes.unattributed, filterMap_concat]
    exact perm_insert h.unattributed _
  panicked := by
    rw [hreads.notes.panicked, h.panicked, List.any_append, List.any_cons, List.any_nil,
      Bool.or_false, Bool.or_assoc, Bool.or_assoc]
    exact congrArg _ (Bool.or_comm _ _)

theorem Accounts.judge {fate : Fate ViolationRecord} (hreads : ReadsViolation s fate pushed a a') :
    Accounts a' learned (judged ++ [(s, fate)]) (pushed ++ lost) where
  learning := by
    rw [hreads.learning.1, hreads.learning.2]
    exact h.learning
  monitoring := by
    have hmonitoring := h.monitoring
    rw [hreads.waiting] at hmonitoring
    rw [hreads.sent]
    exact hmonitoring.next hreads.became
  enqueued := hreads.enqueued.trans h.enqueued
  reported := by
    have hall : a'.reported ++ (pushed ++ lost).map ViolationRecord.toProto
        = a.scraped ++ (fate.value.toList.map ViolationRecord.toProto ++
          (a.scraper.violationBuffer.contents.map ViolationRecord.toProto ++
            lost.map ViolationRecord.toProto)) := by
      unfold Agent.reported
      rw [hreads.scraped, List.map_append, List.append_assoc, ← List.append_assoc (List.map _ _),
        ← List.map_append, hreads.buffer, List.map_append, List.append_assoc]
    have hold := h.reported
    unfold Agent.reported at hold
    rw [List.append_assoc] at hold
    rw [hall, filterMap_concat, List.map_append, ← List.append_assoc]
    exact perm_insert hold _
  overwritten := by
    rw [hreads.overwritten, h.overwritten, List.length_append, Nat.add_comm]
  unparsed := by
    rw [hreads.notes.unparsed, filterMap_concat, ← List.append_assoc]
    exact h.unparsed.append_right _
  unattributed := by
    rw [hreads.notes.unattributed, filterMap_concat, ← List.append_assoc]
    exact h.unattributed.append_right _
  panicked := by
    rw [hreads.notes.panicked, h.panicked, List.any_append, List.any_cons, List.any_nil,
      Bool.or_false, Bool.or_assoc]

theorem Accounts.scrape : Accounts (a.step env opts .scrape) learned judged lost :=
  { h with
    reported := by
      have hdrain : (a.step env opts .scrape).reported = a.reported := by
        unfold Agent.reported Agent.step EventScraper.scrape Violationbuf.scrapeViolations
        simp only [Ring.drain_fst, Ring.contents_drain, List.map_nil, List.append_nil]
      rw [hdrain]
      exact h.reported }

theorem Accounts.step (op : AgentOp) :
    ∃ learned judged lost, Accounts (a.step env opts op) learned judged lost := by
  cases op with
  | resolver o => exact ⟨learned, judged, lost, { h with }⟩
  | exec x evt tracker lag => exact ⟨learned, judged, lost, h.exec x evt _⟩
  | learning =>
    cases hring : a.ringbufExecve with
    | nil => exact ⟨learned, judged, lost, by simpa only [Agent.step, hring] using h⟩
    | cons s rest =>
      obtain ⟨fate, hreads⟩ := readsLearning_step env opts hring
      exact ⟨_, _, _, h.learn hreads⟩
  | monitoring clock =>
    cases hring : a.ringbufMonitoring with
    | nil => exact ⟨learned, judged, lost, by simpa only [Agent.step, hring] using h⟩
    | cons s rest =>
      obtain ⟨fate, pushed, hreads⟩ := readsViolation_step env opts hring clock
      exact ⟨_, _, _, h.judge hreads⟩
  | scrape => exact ⟨learned, judged, lost, h.scrape⟩

end

/-- **Every record is accounted for.** In every run of an agent, the records of each ring buffer are
those that were read, in the order they came, and those that wait. A learning record that was read
went to the learning controller or is an error in the log. A violation record that was read was
answered to the controller, is in the buffer, was overwritten there and counted by the log or its
limiter, or is an error in the log. Nothing else is in any of these places. -/
theorem records_accounted (env : Env) (opts : Options) (ops : List AgentOp) :
    ∃ learned judged lost, Accounts (run (Agent.step env opts) ops {}) learned judged lost :=
  run_inv (C := fun _ _ => True)
    (I := fun a => ∃ learned judged lost, Accounts a learned judged lost)
    (fun _ op ⟨_, _, _, h⟩ _ => h.step op) ⟨[], [], [], .start⟩
    (along_of_forall (D := fun _ => True) fun _ _ => trivial)

namespace Sample

/-- The record of the exec was read and its violation is the one that the controller is answered:
the log stands for no other. -/
theorem records_accounted_late : ∃ learned judged lost,
    Accounts (run (Agent.step (.failsAt 6) opts) late {}) learned judged lost ∧
      judged.length = 1 ∧ lost = [] := by
  obtain ⟨learned, judged, lost, h⟩ := records_accounted (.failsAt 6) opts late
  refine ⟨learned, judged, lost, h, ?_, ?_⟩
  · have hsent : (run (Agent.step (.failsAt 6) opts) late {}).sentMonitoring.length = 1 := by
      decide +kernel
    have hread : (run (Agent.step (.failsAt 6) opts) late {}).ringbufMonitoring.length = 0 := by
      decide +kernel
    have hlen := congrArg List.length h.monitoring.order
    rw [List.length_append, List.length_map, hsent, hread] at hlen
    omega
  · have hnone : (run (Agent.step (.failsAt 6) opts) late {}).scraper.overwritten = 0 := by
      decide +kernel
    exact List.eq_nil_of_length_eq_zero (h.overwritten.symm.trans hnone)

end Sample

end RuntimeEnforcer.Eventscraper
