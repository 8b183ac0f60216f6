import RuntimeEnforcer.Agent.Learning
import RuntimeEnforcer.Agent.ViolationBuffer
import RuntimeEnforcer.Manager.Events
import RuntimeEnforcer.Resolver.ExportViews

/-!
# The event scraper

`internal/eventscraper/eventscraper.go`: what an agent makes of the events that userspace decodes.
The resolver says which container an event's cgroup is; the exec of a container without a policy
goes to the learning controller, and a violation goes to the violation logger and to the buffer that
the controller scrapes. `Start` is its two branches.

`PodMeta` does not carry `WorkloadName` and `WorkloadType`, which only pass through here; they are
given by `Options.workload`. Whether a limiter has a token left is given with the event.
-/

set_option autoImplicit false

namespace RuntimeEnforcer.Eventscraper

open Lib Api Podworkload Eventhandler
open Violationbuf (newBuffer ScrapedViolation scrapeViolations)

/-- What a scraper is set up with. The violation logger is there only with `WithViolationLogger`. -/
structure Options where
  nodeName : String
  violationLogger : Bool
  workload : PodMeta → String × Kind

/-- A line of the log. `suppressed` is the line of `suppressionMsg`, with the number of warnings
that the limiter held back. -/
inductive LogLine
  | failedToGetPodInfo (cgTrackerID : CgroupID) (exe : Bytes) (err : ViewErr)
  | missingPolicyLabel (pod : String) (ns : Namespace)
  | suppressed (count : Nat) (logType : String)
  | warn (msg : String)

/-- The attributes of a `policy_violation` record. -/
structure ViolationEvent where
  timestamp : Time
  policyName : String
  ns : String
  podName : String
  containerName : String
  exePath : Bytes
  foreignRoot : Bool
  nodeName : String
  action : String

/-- `EventScraper`: the buffer of violations and the count of `bufferFullLimiter.suppressed`, with
what the scraper has handed on: to `learningEnqueueFunc` in `enqueued`, to `violationLogger` in
`emitted`. -/
structure EventScraper where
  violationBuffer : Violationbuf.Buffer := newBuffer
  suppressed : Nat := 0
  enqueued : List KubeProcessInfo := []
  emitted : List ViolationEvent := []
  logs : List LogLine := []

def bufferFullMsg : String := "violation buffer full, oldest entry dropped"

/-- `getKubeProcessInfo`; the error is logged. -/
def getKubeProcessInfo (env : Env) (opts : Options) (event : ProcessEvent) (r : Resolver) :
    Except LogLine KubeProcessInfo :=
  match getContainerView env event.cgTrackerID r with
  | .error err => .error (.failedToGetPodInfo event.cgTrackerID event.exePath err)
  | .ok containerView =>
    .ok {
      ns := containerView.podMeta.ns
      workload := (opts.workload containerView.podMeta).1
      workloadKind := (opts.workload containerView.podMeta).2
      containerName := containerView.container.name
      executablePath := event.exePath
      podName := containerView.podMeta.name
      containerID := containerView.containerID
      policyName := containerView.podMeta.policyName
      foreignRoot := event.foreignRoot }

namespace EventScraper

def log (line : LogLine) (es : EventScraper) : EventScraper := { es with logs := es.logs ++ [line] }

/-- `shouldLog` of the limiter, `flushSuppressed`, and the warning. -/
def warnBufferFull (allow : Bool) (es : EventScraper) : EventScraper :=
  if !allow then { es with suppressed := es.suppressed + 1 }
  else if 0 < es.suppressed then
    ({ es with suppressed := 0 }.log (.suppressed es.suppressed bufferFullMsg)).log
      (.warn bufferFullMsg)
  else es.log (.warn bufferFullMsg)

def emitViolationEvent (opts : Options) (now : Time) (info : KubeProcessInfo) (action : String)
    (es : EventScraper) : EventScraper :=
  if !opts.violationLogger then es
  else
    { es with emitted := es.emitted ++ [{
        timestamp := now
        policyName := info.policyName
        ns := info.ns.val
        podName := info.podName
        containerName := info.containerName
        exePath := info.executablePath
        foreignRoot := info.foreignRoot
        nodeName := opts.nodeName
        action := action }] }

/-- The record that `reportViolation` puts in the buffer. -/
def violationRecord (opts : Options) (now : Time) (info : KubeProcessInfo) (action : String) :
    Violationbuf.ViolationRecord where
  timestamp := now
  policyName := info.policyName
  ns := info.ns.val
  podName := info.podName
  containerName := info.containerName
  exePath := info.executablePath
  foreignRoot := info.foreignRoot
  nodeName := opts.nodeName
  action := action
  workloadName := info.workload
  workloadKind := info.workloadKind.string

def reportViolation (opts : Options) (now : Time) (allow : Bool) (info : KubeProcessInfo)
    (action : String) (es : EventScraper) : EventScraper :=
  let recorded := es.violationBuffer.record (violationRecord opts now info action)
  let es := { es with violationBuffer := recorded.2 }
  if recorded.1 then es.warnBufferFull allow else es

/-- `Start`, on an event of the learning channel. -/
def onLearning (env : Env) (opts : Options) (event : ProcessEvent) (r : Resolver)
    (es : EventScraper) : EventScraper :=
  match getKubeProcessInfo env opts event r with
  | .error line => es.log line
  | .ok kubeInfo => { es with enqueued := es.enqueued ++ [kubeInfo] }

/-- The time the two timestamps of a violation are taken, and whether the limiter has a token. -/
structure Clock where
  emitted : Time
  recorded : Time
  allow : Bool

/-- `Start`, on an event of the monitoring channel that belongs to a container. -/
def fileViolation (opts : Options) (clock : Clock) (kubeInfo : KubeProcessInfo) (action : String)
    (es : EventScraper) : EventScraper :=
  let es := if kubeInfo.policyName = "" then
      es.log (.missingPolicyLabel kubeInfo.podName kubeInfo.ns)
    else es
  (es.emitViolationEvent opts clock.emitted kubeInfo action).reportViolation opts clock.recorded
    clock.allow kubeInfo action

def onMonitoring (env : Env) (opts : Options) (clock : Clock) (event : ProcessEvent) (r : Resolver)
    (es : EventScraper) : EventScraper :=
  match getKubeProcessInfo env opts event r with
  | .error line => es.log line
  | .ok kubeInfo => es.fileViolation opts clock kubeInfo event.mode

/-- `ScrapeViolations`, which the controller calls: the answer, and what is left. -/
def scrape (es : EventScraper) : List ScrapedViolation × EventScraper :=
  ((scrapeViolations es.violationBuffer).1,
    { es with violationBuffer := (scrapeViolations es.violationBuffer).2 })

end EventScraper

end RuntimeEnforcer.Eventscraper
