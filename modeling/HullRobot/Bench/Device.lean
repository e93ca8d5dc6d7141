import HullRobot.Robot.Basic
import HullRobot.Stream.Channel

/-!
# Devices

A device takes the values that a machine emits.  Some devices can be flushed.
-/

namespace HullRobot

/-- What a value can be emitted to. -/
inductive Device where
  /-- Keeps all values. -/
  | tape (values : Array Int64)
  /-- Writes the values as decimal lines. -/
  | printer (channel : Channel)
  /-- Keeps as many values as it has room for (`none` for any number) and counts its flushes, which
  may be set to fail. -/
  | gauge (values : Array Int64) (room : Option Nat) (flushes : Nat) (flushFails : Bool)
  /-- The painting robot, and whether it is traced. -/
  | robot (r : Robot) (traced : Bool)

namespace Device

/-- Takes a value.  A traced robot gives its event. -/
def take (v : Int64) : Device → EStateM.Result IoError Device (Option Robot.Event)
  | .tape values => .ok none (.tape (values.push v))
  | .printer channel =>
    match channel.writeValue v with
    | .ok () channel => .ok none (.printer channel)
    | .error e channel => .error e (.printer channel)
  | .gauge values none flushes fails => .ok none (.gauge (values.push v) none flushes fails)
  | .gauge values (some 0) flushes fails => .error .sinkFull (.gauge values (some 0) flushes fails)
  | .gauge values (some (room + 1)) flushes fails =>
    .ok none (.gauge (values.push v) (some room) flushes fails)
  | .robot r traced =>
    let (r, event) := r.write v
    .ok (if traced then some event else none) (.robot r traced)

/-- Flushes a device; one that cannot be flushed stays as it is. -/
def flush : Device → EStateM.Result IoError Device Unit
  | .printer channel =>
    match channel.flush with
    | .ok () channel => .ok () (.printer channel)
    | .error e channel => .error e (.printer channel)
  | .gauge values room flushes true => .error .flushFailed (.gauge values room (flushes + 1) true)
  | .gauge values room flushes false => .ok () (.gauge values room (flushes + 1) false)
  | d => .ok () d

end Device

end HullRobot
