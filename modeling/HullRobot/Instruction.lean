import HullRobot.Decimal

/-!
# Instructions

The two low decimal digits of an instruction word are its opcode.  The digits above them are the
addressing modes of its operands, the lowest for the first operand; missing digits are 0.
-/

namespace HullRobot

/-- The operations of the machine. -/
inductive Opcode where
  | add
  | multiply
  | input
  | output
  | jumpIfTrue
  | jumpIfFalse
  | lessThan
  | equals
  | adjustBase
  | halt
  deriving DecidableEq

namespace Opcode

/-- The operation with a given number. -/
def ofCode? : Nat → Option Opcode
  | 1 => some .add
  | 2 => some .multiply
  | 3 => some .input
  | 4 => some .output
  | 5 => some .jumpIfTrue
  | 6 => some .jumpIfFalse
  | 7 => some .lessThan
  | 8 => some .equals
  | 9 => some .adjustBase
  | 99 => some .halt
  | _ => none

/-- The number of an operation. -/
def code : Opcode → Nat
  | .add => 1
  | .multiply => 2
  | .input => 3
  | .output => 4
  | .jumpIfTrue => 5
  | .jumpIfFalse => 6
  | .lessThan => 7
  | .equals => 8
  | .adjustBase => 9
  | .halt => 99

theorem ofCode?_code (op : Opcode) : ofCode? op.code = some op := by cases op <;> rfl

/-- The name of an operation. -/
def name : Opcode → String
  | .add => "add"
  | .multiply => "mul"
  | .input => "input"
  | .output => "output"
  | .jumpIfTrue => "jump-true"
  | .jumpIfFalse => "jump-false"
  | .lessThan => "less"
  | .equals => "equals"
  | .adjustBase => "base"
  | .halt => "halt"

/-- The name of the operation with a given number; a number without one is shown itself. -/
def nameOfCode (n : Nat) : String :=
  match ofCode? n with
  | some op => op.name
  | none => "op" ++ Decimal.nat n

end Opcode

/-- How an operand cell stands for a value. -/
inductive Mode where
  /-- The cell is the address of the value. -/
  | position
  /-- The cell is the value. -/
  | immediate
  /-- The cell is the address of the value, counted from the relative base. -/
  | relative
  deriving DecidableEq

namespace Mode

/-- The mode with a given digit. -/
def ofDigit? : Nat → Option Mode
  | 0 => some .position
  | 1 => some .immediate
  | 2 => some .relative
  | _ => none

/-- The name of a mode. -/
def name : Mode → String
  | .position => "position"
  | .immediate => "immediate"
  | .relative => "relative"

/-- The name of the mode with a given digit; a digit without one is shown itself. -/
def nameOfDigit (n : Nat) : String :=
  match ofDigit? n with
  | some m => m.name
  | none => "mode" ++ Decimal.nat n

end Mode

/-- Why a word is no instruction. -/
inductive DecodeError where
  /-- The word has no opcode. -/
  | unknownOpcode (address word : Int64)
  /-- An operand of the instruction has a digit that is no mode. -/
  | malformedMode (address word : Int64) (digit : Nat)
  deriving DecidableEq

/-- The text of a decoding error. -/
def DecodeError.message : DecodeError → String
  | .unknownOpcode address word =>
    let place := Decimal.cell word ++ " @" ++ Decimal.cell address
    if word < 0 then "unknown opcode in " ++ place
    else "unknown opcode " ++ Decimal.nat (word.toNatClampNeg % 100) ++ " in " ++ place
  | .malformedMode address word digit =>
    "malformed mode digit " ++ Decimal.nat digit ++ " in " ++ Decimal.cell word ++ " @" ++
      Decimal.cell address

/-- A decoded instruction: where it stands, its word, its operation, and the mode digits that no
operand has used yet. -/
structure Instruction where
  address : Int64
  word : Int64
  opcode : Opcode
  modes : Nat
  deriving DecidableEq

namespace Instruction

/-- Splits the word found at `address` into its opcode and mode digits. -/
def decode (address word : Int64) : Except DecodeError Instruction :=
  if word < 0 then .error (.unknownOpcode address word)
  else
    match Opcode.ofCode? (word.toNatClampNeg % 100) with
    | none => .error (.unknownOpcode address word)
    | some op => .ok ⟨address, word, op, word.toNatClampNeg / 100⟩

/-- Takes the next mode digit.  A digit that is no mode is used up too. -/
def nextMode (ins : Instruction) : Except DecodeError Mode × Instruction :=
  let digit := ins.modes % 10
  let rest := { ins with modes := ins.modes / 10 }
  match Mode.ofDigit? digit with
  | some mode => (.ok mode, rest)
  | none => (.error (.malformedMode ins.address ins.word digit), rest)

/-- The text of an instruction: its name, and its mode digits if it has any. -/
def text (ins : Instruction) : String :=
  let digits := ins.word.toNatClampNeg / 100
  if digits = 0 then ins.opcode.name else ins.opcode.name ++ "/" ++ Decimal.nat digits

end Instruction

end HullRobot
