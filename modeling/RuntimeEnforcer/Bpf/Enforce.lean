import RuntimeEnforcer.Bpf.StringMaps
import RuntimeEnforcer.Bpf.DPath

/-!
# The hook

`enforce_cgroup_policy` (`bpf/main.c`), attached to `security_bprm_creds_for_exec`, with the
helpers it calls: which tracked container the task runs in, whether the exec is the runtime's own
bootstrap, whether the file lives on a foreign root file system, and the two reports (learning,
violation) it writes to the ring buffers.

The hook is a function of what it reads: the exec (`Exec`), the maps, and the per-CPU
`process_evt` it reuses. Besides its verdict it answers what it leaves in that buffer, the records
it submits, and its log events. `bpf_printk` is debug output and left out, and so is the log
event's own header (comm, pid), which nothing here reads.
-/

set_option autoImplicit false

namespace RuntimeEnforcer.Hook

open Lib

structure LoadConf where
  cgrpFsMagic : Nat
  hostMntNsInum : Nat
  cgrpv1SubsysIdx : Nat
  learningEnabled : Bool

def cgroup2SuperMagic : Nat := 0x63677270
def pidsCgrpId : Nat := 11

structure CssSet where
  dflCgrp : CgroupID
  subsys : Nat → CgroupID

/-- What the hook reads of the current task: its `css_set` and that of `real_parent`, where the
outer `none` is a `NULL` parent, `nsproxy->mnt_ns->ns.inum`, and the address of `task->fs`. -/
structure Task where
  cgroups : Option CssSet
  realParent : Option (Option CssSet)
  mntNsInum : Nat
  fs : Addr

structure File where
  mnt : Addr
  dentry : Addr

structure Probes where
  evtLookup : Bool := true
  dentryRead : Bool := true
  copyRead : Bool := true
  ringbufOutput : Bool := true

structure Exec where
  conf : LoadConf
  linuxKernelVersion : Nat
  iterNum : Bool
  mem : KMem
  task : Task
  file : Option File
  probes : Probes := {}

/-- `struct process_evt`; `path` holds `3 * MAX_PATH_LEN` bytes. -/
structure ProcessEvt where
  cgTrackerId : Nat
  pathLen : Nat
  mode : UInt8
  foreign : UInt8
  path : Buffer

/-- `enum log_event_code`, with the arguments of the codes that have them. An `Outcome` is what one
run of the hook does: the verdict, the records submitted to `ringbuf_execve` and to
`ringbuf_monitoring`, and the log events. -/
inductive LogEvent
  | failToLookupEvtMap
  | missingFileStruct
  | failToResolvePath
  | emptyPath
  | failToCopyExecPath
  | dropExecEvent
  | pathLenTooLong
  | policyModeMissing (policyId : PolicyID)
  | dropViolation (policyId : PolicyID) (mode : UInt8)
  deriving DecidableEq, Repr

structure Outcome where
  ret : Int
  evt : ProcessEvt
  execve : Option Bytes := none
  monitoring : Option Bytes := none
  logs : List LogEvent := []

def eperm : Int := 1

/-! ## Who runs, and what -/

def getTaskCgroup (css : Option CssSet) (cgrpFsVer subsysIdx : Nat) : CgroupID :=
  match css with
  | none => 0
  | some css =>
    if cgrpFsVer = cgroup2SuperMagic then css.dflCgrp
    else if subsysIdx > pidsCgrpId then 0
    else css.subsys subsysIdx

def cgrpGetTrackerId (maps : BpfMaps) (cgid : CgroupID) : CgroupID :=
  (maps.cgtracker cgid).getD 0

def getTrackerIdFromTask (maps : BpfMaps) (conf : LoadConf) (css : Option CssSet) : CgroupID :=
  let cgroupid := getTaskCgroup css conf.cgrpFsMagic conf.cgrpv1SubsysIdx
  if cgroupid = 0 then 0 else cgrpGetTrackerId maps cgroupid

/-- `get_tracker_id_from_curr_task`. On cgroup v2 the helper `bpf_get_current_cgroup_id` answers
the task's default cgroup, which is what `get_task_cgroup` reads there. -/
def getTrackerIdFromCurrTask (maps : BpfMaps) (x : Exec) : CgroupID :=
  getTrackerIdFromTask maps x.conf x.task.cgroups

def execIsRuntimeBootstrap (maps : BpfMaps) (x : Exec) (cgTrackerId : CgroupID) : Bool :=
  if x.conf.hostMntNsInum = 0 then false
  else if x.task.mntNsInum ≠ x.conf.hostMntNsInum then false
  else
    match x.task.realParent with
    | none => false
    | some parent => getTrackerIdFromTask maps x.conf parent ≠ cgTrackerId

def mntInternal : Nat := 0x4000

def execIsForeignRoot (x : Exec) : Bool :=
  match x.file with
  | none => false
  | some file =>
    if file.mnt = 0 then false
    else if x.mem.mntFlags file.mnt &&& mntInternal ≠ 0 then false
    else
      let fileNs := x.mem.mntNs (containerOf file.mnt)
      if fileNs = 0 then false
      else x.mem.nsInum fileNs ≠ x.task.mntNsInum

/-! ## The path, and the record -/

/-- `populate_evt_with_path`: the offset of the path (`0` when there is none to act on), what is
left in the event, and the log events. -/
def populateEvtWithPath (x : Exec) (evt : ProcessEvt) : Nat × ProcessEvt × List LogEvent :=
  match x.file with
  | none => (0, evt, [.missingFileStruct])
  | some file =>
    if !x.probes.dentryRead then (0, evt, [.failToResolvePath])
    else
      let (off, buf) := bpfDPathApprox x.mem x.iterNum x.task.fs file.dentry file.mnt evt.path
      let evt := { evt with path := buf }
      if off = 0 then (0, evt, [.failToResolvePath])
      else if off = maxPathLen * 2 then (0, evt, [.emptyPath])
      else (off, { evt with pathLen := u32Sub (maxPathLen * 2) off % 2 ^ 16 }, [])

def copyExecPath (evt : ProcessEvt) (off : Nat) : ProcessEvt :=
  let copied := evt.path.window (safePathAccess off) (safePathLen (evt.pathLen + 1))
  { evt with path := evt.path.write 0 copied }

/-- `n` in `w` little-endian bytes. -/
def leBytes (w n : Nat) : Bytes := (List.range w).map fun i => UInt8.ofNat (n / 256 ^ i)

/-- The fields of `struct process_evt` before `path`. -/
def evtHeader (evt : ProcessEvt) : Bytes :=
  leBytes 8 evt.cgTrackerId ++ leBytes 2 evt.pathLen ++ [evt.mode, evt.foreign]

/-- The first `n` bytes of the event, as `bpf_ringbuf_output` submits them. -/
def evtRecord (evt : ProcessEvt) (n : Nat) : Bytes :=
  evtHeader evt ++ evt.path.window 0 (n - (evtHeader evt).length)

/-! ## The hook -/

/-- The branch for a cgroup without a policy. -/
def reportLearning (x : Exec) (cgTrackerId : CgroupID) (foreign : Bool) (evt : ProcessEvt) :
    Outcome :=
  if !x.conf.learningEnabled then { ret := 0, evt }
  else if !x.probes.evtLookup then { ret := 0, evt, logs := [.failToLookupEvtMap] }
  else
    let evt := { evt with cgTrackerId, mode := 0 }
    if foreign then
      let evt := { evt with foreign := 1, pathLen := 0 }
      if x.probes.ringbufOutput then { ret := 0, evt, execve := some (evtRecord evt 19) }
      else { ret := 0, evt, logs := [.dropExecEvent] }
    else
      let evt := { evt with foreign := 0 }
      let (loffset, evt, logs) := populateEvtWithPath x evt
      if loffset = 0 then { ret := 0, evt, logs }
      else if !x.probes.copyRead then { ret := 0, evt, logs := [.failToCopyExecPath] }
      else
        let evt := copyExecPath evt loffset
        if x.probes.ringbufOutput then
          { ret := 0, evt, execve := some (evtRecord evt (19 + safePathLen evt.pathLen)) }
        else { ret := 0, evt, logs := [.dropExecEvent] }

/-- The report of a violation, and the verdict: deny unless the policy only monitors. -/
def reportViolation (x : Exec) (policyId : PolicyID) (settings : PolicySettings)
    (evt : ProcessEvt) : Outcome :=
  let evt := { evt with mode := settings.mode }
  let ret := if settings.mode = policyModeMonitor then 0 else -eperm
  if x.probes.ringbufOutput then
    { ret, evt, monitoring := some (evtRecord evt (19 + safePathLen evt.pathLen)) }
  else { ret, evt, logs := [.dropViolation policyId evt.mode] }

/-- The branch for a file on a foreign root file system: the allow-list is not consulted. -/
def judgeForeign (x : Exec) (maps : BpfMaps) (policyId : PolicyID) (off : Nat)
    (evt : ProcessEvt) : Outcome :=
  match maps.policySettings policyId with
  | none => { ret := 0, evt, logs := [.policyModeMissing policyId] }
  | some settings =>
    if settings.allowForeignRoot ≠ 0 then { ret := 0, evt }
    else if !x.probes.copyRead then { ret := 0, evt, logs := [.failToCopyExecPath] }
    else reportViolation x policyId settings (copyExecPath evt off)

/-- The comparison with the allow-list. -/
def judgeListed (x : Exec) (maps : BpfMaps) (policyId : PolicyID) (off : Nat)
    (evt : ProcessEvt) : Outcome :=
  if x.linuxKernelVersion < kernelVersion 5 11 0 ∧ evt.pathLen > stringMapSize7 then
    { ret := 0, evt, logs := [.pathLenTooLong] }
  else
    let index := stringMapIndex (stringPaddedLen evt.pathLen)
    if stringMapLookup maps index policyId evt.path (safePathAccess off) then { ret := 0, evt }
    else if !x.probes.copyRead then { ret := 0, evt, logs := [.failToCopyExecPath] }
    else
      let evt := copyExecPath evt off
      match maps.policySettings policyId with
      | none => { ret := 0, evt, logs := [.policyModeMissing policyId] }
      | some settings => reportViolation x policyId settings evt

def enforceCgroupPolicy (x : Exec) (maps : BpfMaps) (evt : ProcessEvt) : Outcome :=
  let cgTrackerId := getTrackerIdFromCurrTask maps x
  if cgTrackerId = 0 then { ret := 0, evt }
  else if execIsRuntimeBootstrap maps x cgTrackerId then { ret := 0, evt }
  else
    let foreign := execIsForeignRoot x
    match maps.cgToPolicy.lookup cgTrackerId with
    | none => reportLearning x cgTrackerId foreign evt
    | some policyId =>
      if !x.probes.evtLookup then { ret := 0, evt, logs := [.failToLookupEvtMap] }
      else
        let evt := { evt with cgTrackerId, foreign := if foreign then 1 else 0 }
        let (currentOffset, evt, logs) := populateEvtWithPath x evt
        if currentOffset = 0 then { ret := 0, evt, logs }
        else if foreign then judgeForeign x maps policyId currentOffset evt
        else judgeListed x maps policyId currentOffset evt

end RuntimeEnforcer.Hook
