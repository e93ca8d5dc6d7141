import HullRobot.Machine.Step
import HullRobot.Recovery

/-!
# Runs

A run carries out instructions until the machine stops.  Before each of them it asks whether it may
go on.  A machine that has halted does not run again.
-/

namespace HullRobot.Machine

/-- How long a run may go on: so many instructions, and what is reported when they are used up. -/
structure Patience where
  budget : Nat
  reason : RunError := .canceled
  deriving DecidableEq

/-- Carries out instructions until the machine stops. -/
def runSteps (reason : RunError) : (budget : Nat) → Machine → Stop × Machine
  | 0, m =>
    match halt (α := Unit) (some reason) m with
    | .ok () m => (.halt (some reason), m)
    | .error stop m => (stop, m)
  | budget + 1, m =>
    match step m with
    | .ok () m => runSteps reason budget m
    | .error stop m => (stop, m)

/-- How a run ended that was stopped. -/
def Stop.ending : Stop → Ending RunError
  | .halt error => .halted (error.map .plain)
  | .crash crash => .crashedOn crash.message

/-- Marks whether a run is on. -/
def setRunning (running : Bool) (m : Machine) : Machine :=
  { m with bench := { m.bench with journal := { m.bench.journal with running } } }

/-- The end of a run that was stopped. -/
def endRun (stop : Stop) (m : Machine) : Option (Failure RunError) × Machine :=
  ((Stop.ending stop).recovered "VM", setRunning false m)

/-- What keeps a machine from running. -/
def refusal? (m : Machine) : Option RunError :=
  match m.imageFault with
  | some fault => some (.image fault)
  | none => if m.halted then some .alreadyHalted else none

/-- Runs the machine, with `go` to carry out its instructions until it stops. -/
def runBy {μ : Type → Type} [Monad μ] (go : Machine → μ (Stop × Machine)) (m : Machine) :
    μ (Option (Failure RunError) × Machine) :=
  match m.refusal? with
  | some error => pure (some (.plain error), m)
  | none => do
    let (stop, m) ← go (setRunning true m)
    return endRun stop m

/-- Runs the machine. -/
def run (patience : Patience) (m : Machine) : Option (Failure RunError) × Machine :=
  Id.run (m.runBy fun m => pure (runSteps patience.reason patience.budget m))

/-- Carries out `times` instructions, whether the machine has halted or not. -/
def stepTimes : (times : Nat) → Machine → Option Stop × Machine
  | 0, m => (none, m)
  | times + 1, m =>
    match step m with
    | .ok () m => stepTimes times m
    | .error stop m => (some stop, m)

/-- Carries out `times` instructions under guard. -/
def runTimes (times : Nat) (m : Machine) : Option (Failure RunError) × Machine :=
  match stepTimes times m with
  | (none, m) => (none, m)
  | (some stop, m) => ((Stop.ending stop).recovered "step", m)

end HullRobot.Machine
