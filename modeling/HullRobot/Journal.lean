import HullRobot.Robot.Basic
import HullRobot.RunError

/-!
# The journal

A machine that keeps a journal enters each instruction, store and output, and how it halted.  A
robot that is traced enters its own events among these.
-/

namespace HullRobot

/-- What a machine enters into its journal. -/
inductive Entry where
  /-- An instruction starts, with the relative base at that time. -/
  | exec (instruction : Instruction) (base : Int64)
  | stored (value address : Int64)
  | emitted (value : Int64)
  /-- The machine halted, after so many instructions. -/
  | halted (steps : UInt64)
  | failed (error : RunError)
  deriving DecidableEq

/-- The text of an entry. -/
def Entry.text : Entry → String
  | .exec instruction base =>
    "exec @" ++ Decimal.cell instruction.address ++ " " ++ instruction.text ++ " -- rb:" ++
      Decimal.cell base
  | .stored value address => "stor " ++ Decimal.cell value ++ " -> @" ++ Decimal.cell address
  | .emitted value => "output " ++ Decimal.cell value
  | .halted steps => "halt after " ++ Decimal.nat steps.toNat ++ " steps"
  | .failed error => "halt error: " ++ error.message

namespace Journal

/-- A line of a journal. -/
inductive Line where
  /-- An entry of the machine, and whether it was made within a run. -/
  | machine (running : Bool) (entry : Entry)
  | robot (event : Robot.Event)
  deriving DecidableEq

/-- The text of a line; entries within a run are indented. -/
def Line.text : Line → String
  | .machine true entry => "\t" ++ entry.text
  | .machine false entry => entry.text
  | .robot event => event.text

end Journal

/-- A journal: whether the machine keeps it, whether a run is on, and the lines so far. -/
structure Journal where
  kept : Bool := false
  running : Bool := false
  lines : Array Journal.Line := #[]
  deriving DecidableEq

namespace Journal

/-- Enters what the machine does, if it keeps the journal. -/
def enter (j : Journal) (entry : Entry) : Journal :=
  if j.kept then { j with lines := j.lines.push (.machine j.running entry) } else j

/-- Enters what a traced robot does. -/
def enterRobot (j : Journal) (event : Robot.Event) : Journal :=
  { j with lines := j.lines.push (.robot event) }

end Journal

end HullRobot
