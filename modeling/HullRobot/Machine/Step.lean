import HullRobot.Machine.Basic

/-!
# Steps

A step decodes the word at the instruction pointer and carries it out.  Each operation takes its
own operands, one after the other, and leaves the instruction pointer behind the last of them
unless it jumps.
-/

namespace HullRobot.Machine

/-- Takes the next mode digit of an instruction. -/
def nextMode (ins : Instruction) : Action (Mode × Instruction) :=
  match ins.nextMode with
  | (.ok mode, ins) => pure (mode, ins)
  | (.error e, _) => halt (some (.decoding e))

/-- Moves the instruction pointer one cell on. -/
def advance : Action Unit := modify fun m => { m with ip := m.ip + 1 }

/-- The value that an operand cell stands for. -/
def resolve (mode : Mode) (cell : Int64) : Action Int64 := do
  match mode with
  | .position => load cell
  | .immediate => pure cell
  | .relative => load (cell + (← get).base)

/-- Takes the next operand as a value.  Its mode digit is taken first, and the instruction pointer
moves on when the value is there. -/
def operand (ins : Instruction) : Action (Int64 × Instruction) := do
  let (mode, ins) ← nextMode ins
  let cell ← load (← get).ip
  let value ← resolve mode cell
  advance
  pure (value, ins)

/-- Takes the next operand as the address to store to.  The cell is taken first, and then its mode
digit: in relative mode the relative base is added, and the other two modes mean the same. -/
def target (ins : Instruction) : Action (Int64 × Instruction) := do
  let cell ← load (← get).ip
  advance
  let (mode, ins) ← nextMode ins
  match mode with
  | .relative => pure (cell + (← get).base, ins)
  | _ => pure (cell, ins)

/-- Takes two operands and an address, and stores what `f` makes of the operands. -/
def combine (f : Int64 → Int64 → Int64) (ins : Instruction) : Action Unit := do
  let (a, ins) ← operand ins
  let (b, ins) ← operand ins
  let (address, _) ← target ins
  store address (f a b)

/-- Goes on at the second operand if the first is zero or not, as `wanted` says.  Else the second
operand is passed over, and its cell is not looked at. -/
def jumpIf (wanted : Bool) (ins : Instruction) : Action Unit := do
  let (condition, ins) ← operand ins
  if (condition != 0) = wanted then
    let (destination, _) ← operand ins
    modify fun m => { m with ip := destination }
  else advance

/-- One for a truth, else zero. -/
def truth (b : Bool) : Int64 := if b then 1 else 0

/-- Carries out an instruction whose word has been passed. -/
def carryOut (ins : Instruction) : Action Unit :=
  match ins.opcode with
  | .add => combine (· + ·) ins
  | .multiply => combine (· * ·) ins
  | .input => do
    let (address, _) ← target ins
    store address (← read)
  | .output => do
    let (v, _) ← operand ins
    emit v
  | .jumpIfTrue => jumpIf true ins
  | .jumpIfFalse => jumpIf false ins
  | .lessThan => combine (fun a b => truth (a < b)) ins
  | .equals => combine (fun a b => truth (a = b)) ins
  | .adjustBase => do
    let (v, _) ← operand ins
    modify fun m => { m with base := m.base + v }
  | .halt => halt none

/-- Passes the word of an instruction and counts it. -/
def commence (ins : Instruction) : Action Unit := do
  modify fun m => { m with ip := m.ip + 1, steps := m.steps + 1 }
  note (.exec ins (← get).base)

/-- Carries out the instruction at the instruction pointer. -/
def step : Action Unit := do
  modify fun m => { m with current := m.ip }
  let address := (← get).current
  let word ← load address
  match Instruction.decode address word with
  | .error e => halt (some (.decoding e))
  | .ok ins =>
    commence ins
    carryOut ins

end HullRobot.Machine
