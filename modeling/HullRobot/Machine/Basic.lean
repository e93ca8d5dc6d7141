import HullRobot.Bench.Basic
import HullRobot.Memory.Load
import HullRobot.Memory.Store

/-!
# The machine

A machine has a memory, which holds its program and its data, and a few registers.  It works on a
bench.  What it does is told by actions: an action may change the machine, and it may stop it by a
halt or by a crash.
-/

namespace HullRobot

/-- A machine: the address of the next word, the relative base, the address of the instruction at
work, the number of instructions so far, whether it has halted, and why its image could not be
loaded, if it could not. -/
structure Machine where
  memory : Memory := {}
  ip : Int64 := 0
  base : Int64 := 0
  current : Int64 := 0
  steps : UInt64 := 0
  halted : Bool := false
  imageFault : Option Memory.Fault := none
  bench : Bench := {}

/-- How an action stops a machine. -/
inductive Stop where
  /-- The machine halted, with or without an error. -/
  | halt (error : Option RunError)
  | crash (crash : Crash)
  deriving DecidableEq

/-- What a machine does. -/
abbrev Action := EStateM Stop Machine

namespace Machine

/-- Enters something into the journal. -/
def note (entry : Entry) : Action Unit :=
  modify fun m => { m with bench := m.bench.note entry }

/-- The last journal entry of a machine that halts. -/
def farewell (steps : UInt64) : Option RunError → Entry
  | none => .halted steps
  | some error => .failed error

/-- Halts.  The output is flushed, and its failure counts if there is no other error. -/
def halt {α : Type} (error : Option RunError) : Action α
  | { memory, ip, base, current, steps, imageFault, bench, .. } =>
    let (flushError, bench) := bench.flush
    let error := error <|> flushError.map .flush
    .error (.halt error) { memory, ip, base, current, steps, halted := true, imageFault,
                           bench := bench.note (farewell steps error) }

/-- Halts because the instruction at work failed. -/
def fault {α : Type} (error : ExecError) : Action α := do
  halt (some (.exec (← get).current error))

/-- Loads a cell. -/
def load (address : Int64) : Action Int64 := do
  match (← get).memory.load address with
  | .ok v => pure v
  | .error (.fault f) => fault (.memory f)
  | .error (.crash c) => throw (.crash c)

/-- Puts a value into memory. -/
def putCell (address value : Int64) : EStateM Memory.Error Machine Unit
  | { memory, ip, base, current, steps, halted, imageFault, bench } =>
    match memory.store address [value] with
    | .ok () memory => .ok () { memory, ip, base, current, steps, halted, imageFault, bench }
    | .error e memory => .error e { memory, ip, base, current, steps, halted, imageFault, bench }

/-- Stores a cell. -/
def store (address value : Int64) : Action Unit := fun m =>
  match putCell address value m with
  | .ok () m => note (.stored value address) m
  | .error (.fault f) m => fault (.memory f) m
  | .error (.crash c) m => .error (.crash c) m

/-- Reads a value from the input. -/
def read : Action Int64
  | { memory, ip, base, current, steps, halted, imageFault, bench } =>
    match bench.read with
    | .ok v bench => .ok v { memory, ip, base, current, steps, halted, imageFault, bench }
    | .error (.io e) bench =>
      fault (.input e) { memory, ip, base, current, steps, halted, imageFault, bench }
    | .error (.crash c) bench =>
      .error (.crash c) { memory, ip, base, current, steps, halted, imageFault, bench }

/-- Emits a value to the output. -/
def emit (v : Int64) : Action Unit
  | { memory, ip, base, current, steps, halted, imageFault, bench } =>
    match (bench.note (.emitted v)).emit v with
    | .ok () bench => .ok () { memory, ip, base, current, steps, halted, imageFault, bench }
    | .error (.io e) bench =>
      fault (.output e) { memory, ip, base, current, steps, halted, imageFault, bench }
    | .error (.crash c) bench =>
      .error (.crash c) { memory, ip, base, current, steps, halted, imageFault, bench }

end Machine

end HullRobot
