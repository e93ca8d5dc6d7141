import HullRobot.Decimal

/-!
# Crashes

An operation reports an error and leaves its caller in charge.  A crash takes the whole run down:
no cleaning up happens on the way out, and what was changed before it stays changed.
-/

namespace HullRobot

/-- What can take a run down. -/
inductive Crash where
  /-- A page would have more cells than a process can address. -/
  | allocation
  /-- Element `index` of `count` was asked for. -/
  | outOfRange (index : Int) (count : Nat)
  /-- A block of `count` cells was opened at `offset`, past its end. -/
  | shortBlock (offset count : Nat)
  /-- An instruction used an input or output that the machine does not have. -/
  | unwired
  /-- A dump was asked for rows of a negative size. -/
  | negativeRow (size : Int)
  /-- A run was taken down without a reason. -/
  | noReason
  deriving DecidableEq

/-- The text of a crash. -/
def Crash.message : Crash → String
  | .allocation => "runtime error: makeslice: len out of range"
  | .outOfRange index count =>
    let place := "runtime error: index out of range [" ++ Decimal.int index ++ "]"
    if index < 0 then place else place ++ " with length " ++ Decimal.nat count
  | .shortBlock offset count =>
    "runtime error: slice bounds out of range [" ++ Decimal.nat offset ++ ":" ++
      Decimal.nat count ++ "]"
  | .unwired => "runtime error: invalid memory address or nil pointer dereference"
  | .negativeRow size => "runtime error: slice bounds out of range [:" ++ Decimal.int size ++ "]"
  | .noReason => "runtime error: panic called with nil argument"

end HullRobot
