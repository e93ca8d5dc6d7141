import HullRobot.Bench.Device
import HullRobot.Crash
import HullRobot.Journal

/-!
# The bench

A machine stands on a bench with its devices.  The bench says where the machine reads from and
which devices it emits to, in which order, and it has the journal.
-/

namespace HullRobot

/-- The position of a device on the bench. -/
abbrev Socket := Nat

/-- Where a machine reads from. -/
inductive Input where
  | absent
  /-- The same value, for ever. -/
  | constant (v : Int64)
  /-- These values, one after the other. -/
  | queue (values : List Int64)
  /-- The camera of the robot at a socket. -/
  | camera (socket : Socket)
  deriving DecidableEq

/-- One place that a value can go to. -/
inductive Outlet where
  /-- Takes all values and keeps none. -/
  | drain
  | socket (socket : Socket)
  deriving DecidableEq

/-- Where a machine emits to. -/
inductive Output where
  | absent
  | single (outlet : Outlet)
  | several (outlets : List Outlet)
  deriving DecidableEq

namespace Output

/-- The places a value is offered to, in order. -/
def outlets : Output → List Outlet
  | .absent => []
  | .single outlet => [outlet]
  | .several outlets => outlets

/-- The output that offers values to these places. -/
def ofOutlets : List Outlet → Output
  | [] => .absent
  | [outlet] => .single outlet
  | outlets => .several outlets

/-- Both outputs as one. -/
def join (a b : Output) : Output := ofOutlets (a.outlets ++ b.outlets)

end Output

/-- The bench of a machine.  At first the machine reads 0 and emits to nowhere. -/
structure Bench where
  input : Input := .constant 0
  output : Output := .single .drain
  devices : Array Device := #[]
  journal : Journal := {}

namespace Bench

/-- How reading and emitting fail. -/
inductive Error where
  | io (e : IoError)
  | crash (c : Crash)
  deriving DecidableEq

/-- Puts a device on the bench, at the next socket. -/
def attach (b : Bench) (d : Device) : Bench := { b with devices := b.devices.push d }

/-- Reads a value. -/
def read (b : Bench) : EStateM.Result Error Bench Int64 :=
  match b.input with
  | .absent => .error (.crash .unwired) b
  | .constant v => .ok v b
  | .queue [] => .error (.io .endOfInput) b
  | .queue (v :: vs) => .ok v { b with input := .queue vs }
  | .camera socket =>
    match b.devices[socket]? with
    | some (.robot r _) => .ok r.camera b
    | _ => .error (.crash .unwired) b

/-- Takes the device at a socket off the bench and leaves an empty tape in its place. -/
def detach? (devices : Array Device) (socket : Socket) : Option (Device × Array Device) :=
  if h : socket < devices.size then some (devices[socket], devices.set socket (.tape #[])) else none

/-- Offers a value to one place.  The device is off the bench while it works. -/
def offer (v : Int64) (outlet : Outlet) : Bench → EStateM.Result IoError Bench Unit
  | { input, output, devices, journal } =>
    match outlet with
    | .drain => .ok () { input, output, devices, journal }
    | .socket socket =>
      match detach? devices socket with
      | none => .ok () { input, output, devices, journal }
      | some (device, devices) =>
        match device.take v with
        | .ok none device =>
          .ok () { input, output, devices := devices.setIfInBounds socket device, journal }
        | .ok (some event) device =>
          .ok () { input, output, devices := devices.setIfInBounds socket device,
                   journal := journal.enterRobot event }
        | .error e device =>
          .error e { input, output, devices := devices.setIfInBounds socket device, journal }

/-- Offers a value to places in order, up to the first that fails. -/
def offerAll (v : Int64) : List Outlet → Bench → EStateM.Result IoError Bench Unit
  | [], b => .ok () b
  | outlet :: rest, b =>
    match offer v outlet b with
    | .ok () b => offerAll v rest b
    | .error e b => .error e b

/-- Emits a value. -/
def emit (v : Int64) (b : Bench) : EStateM.Result Error Bench Unit :=
  match b.output with
  | .absent => .error (.crash .unwired) b
  | output =>
    match offerAll v output.outlets b with
    | .ok () b => .ok () b
    | .error e b => .error (.io e) b

/-- Flushes one place. -/
def flushOutlet (outlet : Outlet) : Bench → EStateM.Result IoError Bench Unit
  | { input, output, devices, journal } =>
    match outlet with
    | .drain => .ok () { input, output, devices, journal }
    | .socket socket =>
      match detach? devices socket with
      | none => .ok () { input, output, devices, journal }
      | some (device, devices) =>
        match device.flush with
        | .ok () device =>
          .ok () { input, output, devices := devices.setIfInBounds socket device, journal }
        | .error e device =>
          .error e { input, output, devices := devices.setIfInBounds socket device, journal }

/-- Flushes all places in order.  Gives the first failure, if there was one. -/
def flushAll : List Outlet → Bench → Option IoError × Bench
  | [], b => (none, b)
  | outlet :: rest, b =>
    match flushOutlet outlet b with
    | .ok () b => flushAll rest b
    | .error e b => (some e, (flushAll rest b).2)

/-- Flushes the output. -/
def flush (b : Bench) : Option IoError × Bench := flushAll b.output.outlets b

/-- Enters something into the journal. -/
def note (b : Bench) (entry : Entry) : Bench := { b with journal := b.journal.enter entry }

/-- The robot that was put on the bench last. -/
def robot? (b : Bench) : Option Robot :=
  b.devices.toList.reverse.findSome? fun
    | .robot r _ => some r
    | _ => none

end Bench

end HullRobot
