import RuntimeEnforcer.Manager.PolicySettings

/-!
# Decoding ring buffer records

`processRingbufEvents` (`internal/bpf/events_common.go`) on one record: the header is read in
little-endian order, the path is what the header's length says, and the event goes to the channel.
A record that cannot be parsed is logged and skipped; a mode that is no policy mode panics.
-/

set_option autoImplicit false

namespace RuntimeEnforcer

open Lib

structure ProcessEvent where
  cgTrackerID : Nat
  exePath : Bytes
  mode : String
  foreignRoot : Bool
  deriving DecidableEq, Repr

structure EventHeader where
  cgTrackerID : Nat
  pathLen : Nat
  mode : UInt8
  foreign : UInt8

/-- What becomes of a record. -/
inductive Decoded
  | event (e : ProcessEvent)
  | skipped (reason : String)
  | panicked (reason : String)
  deriving DecidableEq, Repr

/-- A little-endian number. -/
def fromLeBytes (b : Bytes) : Nat := b.foldr (fun c n => c.toNat + 256 * n) 0

/-- `binary.Read(buf, binary.LittleEndian, &header)`: the header, and what is left to read. -/
def readHeader (record : Bytes) : Option (EventHeader × Bytes) :=
  if record.length < 12 then none
  else some ({
    cgTrackerID := fromLeBytes (record.take 8)
    pathLen := fromLeBytes ((record.drop 8).take 2)
    mode := (record.getD 10 0)
    foreign := (record.getD 11 0) }, record.drop 12)

/-- `buf.Read(make([]byte, n))` on what is left of a `bytes.Buffer`: a short read fills a prefix,
and only an empty buffer is an error. -/
def bufRead (rest : Bytes) (n : Nat) : Option Bytes :=
  if rest.length = 0 ∧ n ≠ 0 then none
  else some ((rest ++ List.replicate n 0).take n)

def processRingbufEvent (record : Bytes) : Decoded :=
  match readHeader record with
  | none => .skipped "parsing ringbuf event"
  | some (header, rest) =>
    if header.pathLen > 4096 then .skipped "invalid path length in ringbuf event"
    else
      match bufRead rest header.pathLen with
      | none => .skipped "reading path bytes"
      | some pathBytes =>
        if header.mode = 0 then
          .event { cgTrackerID := header.cgTrackerID, exePath := pathBytes, mode := "",
                   foreignRoot := header.foreign ≠ 0 }
        else
          match Mode.fromUint8 header.mode with
          | none => .panicked "unknown uint8 value for policy mode"
          | some mode =>
            .event { cgTrackerID := header.cgTrackerID, exePath := pathBytes, mode := mode.string,
                     foreignRoot := header.foreign ≠ 0 }

end RuntimeEnforcer
