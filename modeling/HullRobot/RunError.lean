import HullRobot.Instruction
import HullRobot.Memory.Basic
import HullRobot.Stream.Basic

/-!
# Errors of a run

An instruction that cannot be decoded is reported as it is.  What goes wrong while an instruction
runs is reported with the address of the instruction.
-/

namespace HullRobot

/-- What goes wrong while an instruction runs. -/
inductive ExecError where
  | memory (fault : Memory.Fault)
  | input (error : IoError)
  | output (error : IoError)
  deriving DecidableEq

/-- The text of what went wrong. -/
def ExecError.message : ExecError → String
  | .memory fault => fault.message
  | .input error => "input: " ++ error.message
  | .output error => "output: " ++ error.message

/-- Why a run did not end well. -/
inductive RunError where
  /-- A word or a mode digit could not be decoded. -/
  | decoding (error : DecodeError)
  /-- The instruction at `address` failed. -/
  | exec (address : Int64) (error : ExecError)
  /-- The output could not be flushed when the machine halted. -/
  | flush (error : IoError)
  /-- The run was called off. -/
  | canceled
  /-- The time for the run was over. -/
  | expired
  /-- The image did not fit into memory. -/
  | image (fault : Memory.Fault)
  /-- The machine has stopped before. -/
  | alreadyHalted
  deriving DecidableEq

/-- The text of an error. -/
def RunError.message : RunError → String
  | .decoding error => error.message
  | .exec address error => "exec @" ++ Decimal.cell address ++ ": " ++ error.message
  | .flush error => error.message
  | .canceled => "context canceled"
  | .expired => "context deadline exceeded"
  | .image fault => fault.message
  | .alreadyHalted => "machine already halted"

end HullRobot
