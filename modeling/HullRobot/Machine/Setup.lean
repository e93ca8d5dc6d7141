import HullRobot.Machine.Basic

/-!
# Setting up a machine

A machine is made and changed by setups, one after the other.
-/

namespace HullRobot.Machine

/-- A change of a machine from outside. -/
inductive Setup where
  /-- Clears memory and registers, and loads cells from address 0 on. -/
  | image (cells : List Int64)
  | memoryLimit (limit : Int64)
  | pageSize (size : Int64)
  /-- Puts a device on the bench. -/
  | attach (device : Device)
  | input (input : Input)
  /-- Flushes the output and puts another in its place. -/
  | output (output : Output)
  /-- Adds an output to the one there is. -/
  | tee (output : Output)
  /-- Starts to keep a journal. -/
  | journal
  | ip (address : Int64)
  | base (base : Int64)
  /-- Stores cells if memory takes them. -/
  | store (address : Int64) (cells : List Int64)

/-- Makes a change.  A fault while an image is loaded is kept for the next run. -/
def setUp (m : Machine) : Setup → EStateM.Result Crash Machine Unit
  | .image cells =>
    let cleared := { m with ip := 0, base := 0, current := 0, steps := 0, halted := false }
    match m.memory.reset.store 0 cells with
    | .ok () memory => .ok () { cleared with memory, imageFault := none }
    | .error (.fault fault) memory => .ok () { cleared with memory, imageFault := some fault }
    | .error (.crash crash) memory => .error crash { cleared with memory }
  | .memoryLimit limit => .ok () { m with memory := { m.memory with limit } }
  | .pageSize size => .ok () { m with memory := { m.memory with pageSize := size } }
  | .attach device => .ok () { m with bench := m.bench.attach device }
  | .input input => .ok () { m with bench := { m.bench with input } }
  | .output output => .ok () { m with bench := { m.bench.flush.2 with output } }
  | .tee output => .ok () { m with bench := { m.bench with output := m.bench.output.join output } }
  | .journal =>
    .ok () { m with bench := { m.bench with journal := { m.bench.journal with kept := true } } }
  | .ip address => .ok () { m with ip := address }
  | .base base => .ok () { m with base }
  | .store address cells =>
    match m.memory.store address cells with
    | .ok () memory => .ok () { m with memory }
    | .error (.fault _) memory => .ok () { m with memory }
    | .error (.crash crash) memory => .error crash { m with memory }

/-- Makes changes one after the other. -/
def setUpAll (m : Machine) : List Setup → EStateM.Result Crash Machine Unit
  | [] => .ok () m
  | s :: rest =>
    match m.setUp s with
    | .ok () m => setUpAll m rest
    | .error crash m => .error crash m

end HullRobot.Machine
