import HullRobot.Decimal
import HullRobot.Stream.Basic

/-!
# Channels for decimal lines

A channel writes each value on a line of its own.  How its bytes reach their place depends on what
the channel ends in: memory needs no buffer, a sink that is flushed by itself is written through,
and every other sink gets a buffer.
-/

namespace HullRobot

/-- Where decimal lines go. -/
inductive Channel where
  /-- Nowhere. -/
  | discard
  /-- Into memory. -/
  | memory (received : Array UInt8)
  /-- Into a sink, through a buffer. -/
  | buffered (buffer : Buffered)
  /-- Into a sink that is flushed by itself; `flushes` counts that. -/
  | through (sink : ByteSink) (flushes : Nat)
  deriving DecidableEq

namespace Channel

/-- What has arrived at the end of the channel. -/
def received : Channel → Array UInt8
  | .discard => #[]
  | .memory received => received
  | .buffered buffer => buffer.sink.received
  | .through sink _ => sink.received

/-- What has arrived, as text. -/
def text (c : Channel) : String := Text.ofBytes c.received.toList

/-- How often the end of the channel was flushed, if it counts that. -/
def flushes? : Channel → Option Nat
  | .through _ flushes => some flushes
  | _ => none

/-- Writes bytes. -/
def write : Channel → List UInt8 → EStateM.Result IoError Channel Unit
  | .discard, _ => .ok () .discard
  | .memory received, bytes => .ok () (.memory (received ++ bytes))
  | .buffered buffer, bytes =>
    match buffer.write bytes with
    | .ok () buffer => .ok () (.buffered buffer)
    | .error e buffer => .error e (.buffered buffer)
  | .through sink flushes, bytes =>
    match sink.write bytes with
    | .ok () sink => .ok () (.through sink flushes)
    | .error e sink => .error e (.through sink flushes)

/-- Passes on what is pending. -/
def flush : Channel → EStateM.Result IoError Channel Unit
  | .discard => .ok () .discard
  | .memory received => .ok () (.memory received)
  | .buffered buffer =>
    match buffer.flush with
    | .ok () buffer => .ok () (.buffered buffer)
    | .error e buffer => .error e (.buffered buffer)
  | .through sink flushes => .ok () (.through sink (flushes + 1))

/-- The line for a value. -/
def line (v : Int64) : List UInt8 := Decimal.asciiBytes (Decimal.ofInt v.toInt ++ ['\n'])

/-- Writes a value on a line of its own. -/
def writeValue (c : Channel) (v : Int64) : EStateM.Result IoError Channel Unit := c.write (line v)

/-- Writes a value `times` times, up to the first failure, and counts the writes that worked. -/
def writeRepeated (v : Int64) : (times : Nat) → (done : Nat) → Channel →
    EStateM.Result (IoError × Nat) Channel Nat
  | 0, done, c => .ok done c
  | times + 1, done, c =>
    match c.writeValue v with
    | .ok () c => writeRepeated v times (done + 1) c
    | .error e c => .error (e, done) c

end Channel

end HullRobot
