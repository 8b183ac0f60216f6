import RuntimeEnforcer.Api.Types
import RuntimeEnforcer.Lib.Ring

/-!
# The violations an agent holds

`internal/violationbuf/buffer.go` and `ScrapeViolations` of
`internal/grpcexporter/agent_observer.go`: a ring of the last ten thousand violations, which a
scrape empties. What the agent answers is `agentv1.ViolationRecord`.

The ring counts without a bound. `Int64Buffer` is the buffer with the position the agent has, an
`int64` that wraps, and with the panics of Go where an index or a capacity is negative.
-/

set_option autoImplicit false

namespace RuntimeEnforcer.Violationbuf

open Lib Api

structure ViolationRecord where
  timestamp : Time := Time.zero
  policyName : String := ""
  ns : String := ""
  podName : String := ""
  containerName : String := ""
  exePath : Bytes := []
  foreignRoot : Bool := false
  nodeName : String := ""
  action : String := ""
  workloadName : String := ""
  workloadKind : String := ""

def maxBufferEntries : Nat := 10000

instance : NeZero maxBufferEntries := ⟨by decide⟩

/-- `Buffer`; `Record` and `Drain` are the ring's. -/
abbrev Buffer := Ring ViolationRecord maxBufferEntries

def newBuffer : Buffer := { buf := fun _ => {} }

/-- `Buffer` with its `int64` position. -/
structure Int64Buffer where
  buf : Fin maxBufferEntries → ViolationRecord
  pos : Int

namespace Int64Buffer

def new : Int64Buffer := { buf := fun _ => {}, pos := 0 }

/-- `i % MaxBufferEntries` as an index; a negative one is out of range. -/
def index (i : Int) : Option (Fin maxBufferEntries) :=
  if 0 ≤ i.tmod maxBufferEntries then some (Fin.ofNat _ (i.tmod maxBufferEntries).toNat) else none

/-- `Record`; nothing when it panics. -/
def record (b : Int64Buffer) (rec : ViolationRecord) : Option (Bool × Int64Buffer) := do
  let dropped := decide ((maxBufferEntries : Int) ≤ b.pos)
  let idx ← index b.pos
  return (dropped, { buf := Function.update b.buf idx rec, pos := int64Succ b.pos })

/-- `Drain`; nothing when it panics. -/
def drain (b : Int64Buffer) : Option (List ViolationRecord × Int64Buffer) :=
  let n := min b.pos maxBufferEntries
  if n = 0 then some ([], b)
  else if n < 0 then none
  else do
    let records ← (List.range n.toNat).mapM fun i : Nat => (index (b.pos - 1 - i)).map b.buf
    return (records, { b with pos := 0 })

/-- What a drain answers with; nothing when it panics. -/
def held (b : Int64Buffer) : List ViolationRecord := (b.drain.map Prod.fst).getD []

/-- The buffer after `Record`; `afterDrain` is the same for `Drain`. A panic ends the agent, and the
agent that is started in its place has a new buffer. -/
def afterRecord (b : Int64Buffer) (rec : ViolationRecord) : Int64Buffer :=
  ((b.record rec).map Prod.snd).getD new

def afterDrain (b : Int64Buffer) : Int64Buffer := (b.drain.map Prod.snd).getD new

end Int64Buffer

structure ScrapedViolation where
  timestamp : Time
  podName : String
  containerName : String
  executablePath : Bytes
  foreignRoot : Bool
  nodeName : String
  action : String
  policyName : NamespacedPolicyName
  workloadName : String
  workloadKind : String

/-- The policy that a violation is one of. -/
def ViolationRecord.policy (rec : ViolationRecord) : NamespacedPolicyName :=
  rec.ns ++ "/" ++ rec.policyName

def ViolationRecord.toProto (rec : ViolationRecord) : ScrapedViolation where
  timestamp := rec.timestamp
  podName := rec.podName
  containerName := rec.containerName
  executablePath := rec.exePath
  foreignRoot := rec.foreignRoot
  nodeName := rec.nodeName
  action := rec.action
  policyName := rec.policy
  workloadName := rec.workloadName
  workloadKind := rec.workloadKind

/-- `ScrapeViolations`: the answer, and the buffer it leaves. -/
def scrapeViolations (b : Buffer) : List ScrapedViolation × Buffer :=
  let (records, b) := b.drain
  (records.map ViolationRecord.toProto, b)

end RuntimeEnforcer.Violationbuf
