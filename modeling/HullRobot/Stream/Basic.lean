import HullRobot.Text.Utf8

/-!
# Byte streams

A sink takes bytes until its room is used up.  A buffered sink collects bytes and passes them on in
large pieces.  Once its sink has failed it reports that failure for good and passes nothing on.
-/

namespace HullRobot

/-- Why reading or writing failed. -/
inductive IoError where
  /-- There is nothing left to read. -/
  | endOfInput
  /-- A byte sink has no room left. -/
  | writerFull
  /-- A gauge takes no more values. -/
  | sinkFull
  /-- A gauge could not be flushed. -/
  | flushFailed
  deriving DecidableEq

/-- The text of an input or output error. -/
def IoError.message : IoError → String
  | .endOfInput => "EOF"
  | .writerFull => "writer full"
  | .sinkFull => "sink full"
  | .flushFailed => "flush failed"

/-- A sink for bytes: what it got, and how many bytes it still takes (`none` for any number). -/
structure ByteSink where
  received : Array UInt8 := #[]
  room : Option Nat := none
  deriving DecidableEq

namespace ByteSink

/-- A sink that takes `limit` bytes, or any number if that is negative. -/
def limited (limit : Int) : ByteSink := { room := if limit < 0 then none else some limit.toNat }

/-- What the sink got, as text. -/
def text (s : ByteSink) : String := Text.ofBytes s.received.toList

/-- Writes bytes.  A sink without room for all of them takes those that fit and fails. -/
def write (bytes : List UInt8) : ByteSink → EStateM.Result IoError ByteSink Unit
  | { received, room := none } => .ok () { received := received ++ bytes, room := none }
  | { received, room := some room } =>
    if bytes.length ≤ room then
      .ok () { received := received ++ bytes, room := some (room - bytes.length) }
    else .error .writerFull { received := received ++ bytes.take room, room := some 0 }

end ByteSink

/-- A sink behind a buffer.  `broken` is the failure of the sink, if it failed. -/
structure Buffered where
  sink : ByteSink
  pending : Array UInt8 := #[]
  broken : Option IoError := none
  deriving DecidableEq

namespace Buffered

/-- How many bytes the buffer holds. -/
def capacity : Nat := 4096

/-- Passes bytes to the sink, past the buffer. -/
def pass (bytes : List UInt8) : Buffered → EStateM.Result IoError Buffered Unit
  | { sink, pending, broken } =>
    match sink.write bytes with
    | .ok () sink => .ok () { sink, pending, broken }
    | .error e sink => .error e { sink, pending, broken := some e }

/-- Passes on what is pending.  After a failure it stays pending for good. -/
def flush : Buffered → EStateM.Result IoError Buffered Unit
  | { sink, pending, broken := some e } => .error e { sink, pending, broken := some e }
  | { sink, pending, broken := none } =>
    if pending.isEmpty then .ok () { sink, pending }
    else
      match sink.write pending.toList with
      | .ok () sink => .ok () { sink }
      | .error e sink => .error e { sink, pending, broken := some e }

/-- Writes bytes into the buffer.  Bytes beyond its free room are written after it was filled up
and passed on, and what is larger than a whole empty buffer goes past it. -/
def write (bytes : List UInt8) : Buffered → EStateM.Result IoError Buffered Unit
  | { sink, pending, broken := some e } => .error e { sink, pending, broken := some e }
  | { sink, pending, broken := none } =>
    let free := capacity - pending.size
    if bytes.length ≤ free then .ok () { sink, pending := pending ++ bytes }
    else if pending.isEmpty then pass bytes { sink, pending }
    else
      match flush { sink, pending := pending ++ bytes.take free } with
      | .error e b => .error e b
      | .ok () b =>
        let rest := bytes.drop free
        if rest.length ≤ capacity then .ok () { b with pending := rest.toArray } else pass rest b

end Buffered

end HullRobot
