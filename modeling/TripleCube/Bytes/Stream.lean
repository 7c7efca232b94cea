/-! Byte sources and sinks as values. A source either ends after its bytes or fails there;
a sink may have room for only so many bytes and may fail to flush. -/
namespace TripleCube

/-- Bytes to read, and the cause with which the source fails where it would otherwise end. -/
structure Source where
  bytes : List UInt8
  failure : Option String := none

namespace Source

/-- Why a read could not be served. -/
inductive Fault
  | ended
  | failed (cause : String)
  deriving DecidableEq

def Fault.text : Fault → String
  | .ended => "failed to fill whole buffer"
  | .failed cause => cause

/-- What a source answers when it has no byte left. -/
def atEnd (source : Source) : Fault :=
  match source.failure with
  | none => .ended
  | some cause => .failed cause

/-- Reads exactly `count` bytes. -/
def take (source : Source) (count : Nat) : Except Fault (List UInt8 × Source) :=
  if count ≤ source.bytes.length then
    .ok (source.bytes.take count, { source with bytes := source.bytes.drop count })
  else .error source.atEnd

/-- Reads `count` bytes, or as many as there are before the end. -/
def takeUpTo (source : Source) (count : Nat) : Except Fault (List UInt8 × Source) :=
  match source.take count with
  | .ok read => .ok read
  | .error .ended => .ok (source.bytes, { source with bytes := [] })
  | .error fault => .error fault

end Source

/-- Where bytes are written to. -/
structure Sink where
  /-- What has been written. -/
  accepted : List UInt8 := []
  /-- How many bytes the sink still takes, with the cause it gives when asked for more. -/
  room : Option (Nat × String) := none
  /-- The cause with which flushing fails. -/
  flushFailure : Option String := none

namespace Sink

/-- A sink that takes everything. -/
def unlimited : Sink := {}

def limited (room : Nat) (cause : String) : Sink := { room := some (room, cause) }

def write (sink : Sink) (bytes : List UInt8) : Except String Sink :=
  let accepted := sink.accepted ++ bytes
  match sink.room with
  | none => .ok { sink with accepted }
  | some (room, cause) =>
    if bytes.length ≤ room then
      .ok { sink with accepted, room := some (room - bytes.length, cause) }
    else .error cause

def flush (sink : Sink) : Except String Unit :=
  match sink.flushFailure with
  | none => .ok ()
  | some cause => .error cause

end Sink

end TripleCube
