import HullRobot.Flags
import HullRobot.Image
import HullRobot.Logger
import HullRobot.Machine.Dump
import HullRobot.Machine.Run
import HullRobot.Robot.Drawing
import HullRobot.Snapshot

/-!
# The command

A command runs an image.  The painting robot takes what the machine gives out and shows it what its
camera sees, and in the end the command prints how many panels are painted.  In raw mode there is no
robot: the machine reads given values, and the command prints what it gives out.
-/

namespace HullRobot.Command

/-- Why a command fails. -/
inductive Error where
  | flags (e : Flags.Error)
  | settings (e : Settings.Error)
  /-- Input values were given without raw mode. -/
  | inputWithoutRaw
  | tooManyImages (count : Nat)
  | file (e : Files.Error)
  | image (source : String) (e : Image.Error)
  | input (e : Image.Error)
  | run (failure : Failure RunError)
  | drawing (e : IoError)
  deriving DecidableEq

/-- The text of an error. -/
def Error.message : Error → String
  | .flags e => e.message
  | .settings e => e.message
  | .inputWithoutRaw => "-input is only read in -raw mode"
  | .tooManyImages count => "expected at most one image file, got " ++ Decimal.nat count
  | .file e => e.message
  | .image source e => e.message source
  | .input e => "invalid -input: " ++ e.message ""
  | .run failure => failure.message RunError.message
  | .drawing e => e.message

/-- When a run is stopped from outside. -/
inductive Clock where
  /-- Before its first instruction. -/
  | stopped (reason : RunError)
  /-- After so many instructions, unless the run has a time limit. -/
  | counting (budget : Nat)
  /-- When its time limit is up, if it has one; so many instructions fit into the time. -/
  | expiring (budget : Nat)
  deriving DecidableEq

/-- More instructions than a run has time for. -/
def endless : Nat := 0x4000000000000000

/-- How long a run may go on. -/
def Clock.patience (timed : Bool) : Clock → Machine.Patience
  | .stopped reason => { budget := 0, reason }
  | .counting budget => { budget := if timed then endless else budget }
  | .expiring budget => if timed then { budget, reason := .expired } else { budget := endless }

/-- What a command is started with. -/
structure Request where
  args : List String := []
  /-- The bytes of standard input. -/
  stdin : List UInt8 := []
  files : Files := {}
  clock : Clock := .counting endless
  /-- How many bytes standard output takes.  One without a limit is memory, and needs no buffer. -/
  stdoutLimit : Option Int := none

/-- How a command ends. -/
inductive Conclusion where
  | succeeded
  | failed (e : Error)
  | crashed (c : Crash)
  deriving DecidableEq

/-- What a command leaves behind. -/
structure Outcome where
  conclusion : Conclusion
  stdout : List UInt8 := []
  stderr : String := ""
  /-- The lines of the log. -/
  log : List String := []
  files : Files

/-- The exit code of the program. -/
def Conclusion.exitCode : Conclusion → Nat
  | .succeeded => 0
  | .failed _ => 1
  | .crashed _ => 2

/-! ## Before the run -/

/-- A command that can be run. -/
structure Plan where
  settings : Settings
  /-- The cells of the image. -/
  cells : List Int64
  /-- The input values for raw mode. -/
  inputs : List Int64 := []
  /-- The file for all output values. -/
  tracePath? : Option Path := none

/-- The settings of a command. -/
def settings (flags : Flags) (files : Files) : Except Error Settings :=
  match Settings.load files flags.configName with
  | .error e => .error (.settings e)
  | .ok s =>
    let s := flags.change s
    match s.validate with
    | .error e => .error (.settings e)
    | .ok () => .ok s

/-- The cells of an image that is called `source` in errors. -/
def cellsOf (source : String) (bytes : List UInt8) : Except Error (List Int64) :=
  match Image.parseBytes bytes with
  | .error e => .error (.image source e)
  | .ok cells => .ok cells

/-- Reads the image: from the file that is named, or from standard input. -/
def readImage (r : Request) : List String → Except Error (List Int64)
  | [] => cellsOf "<stdin>" r.stdin
  | [name] =>
    if name = "" ∨ name = "-" then cellsOf "<stdin>" r.stdin
    else
      match r.files.read name with
      | .error e => .error (.file e)
      | .ok bytes => cellsOf name bytes
  | names => .error (.tooManyImages names.length)

/-- Reads the input values, which only raw mode has. -/
def readInputs (s : Settings) (text : String) : Except Error (List Int64) :=
  if s.raw then
    match Image.parse text.toList with
    | .error e => .error (.input e)
    | .ok values => .ok values
  else .ok []

/-- The path of the file for all output values, if there is to be one. -/
def tracePath? (s : Settings) (files : Files) : Except Error (Option Path) :=
  if s.traceFile.isEmpty then .ok none
  else
    match files.writable s.traceFile with
    | .error e => .error (.file e)
    | .ok path => .ok (some path)

/-- Makes sure that a command can be run.  The first thing wrong with it counts. -/
def plan (r : Request) (flags : Flags) : Except Error Plan := do
  let settings ← settings flags r.files
  if flags.inputText ≠ "" ∧ !settings.raw then throw .inputWithoutRaw
  let cells ← readImage r flags.rest
  let inputs ← readInputs settings flags.inputText
  let tracePath? ← tracePath? settings r.files
  pure { settings, cells, inputs, tracePath? }

namespace Plan

/-- The socket of the robot, or in raw mode of the printer on standard output. -/
def mainSocket : Socket := 0

/-- The socket of the tape for the snapshot. -/
def tapeSocket : Socket := 1

/-- The socket of the printer into the file for all output values. -/
def traceSocket (p : Plan) : Socket := if p.settings.snapshot.isEmpty then 1 else 2

/-- Standard output in raw mode. -/
def printer (limit : Option Int) : Channel :=
  match limit with
  | none => .memory #[]
  | some limit => .buffered { sink := ByteSink.limited limit }

/-- The device that the machine gives its values to first. -/
def mainDevice (p : Plan) (stdoutLimit : Option Int) : Device :=
  if p.settings.raw then .printer (printer stdoutLimit)
  else .robot (Robot.new p.settings.startColor) p.settings.trace

/-- Where the machine reads from. -/
def input (p : Plan) : Input := if p.settings.raw then .queue p.inputs else .camera mainSocket

/-- How the machine is set up. -/
def setups (p : Plan) (stdoutLimit : Option Int) : List Machine.Setup :=
  let taped := !p.settings.snapshot.isEmpty
  let traced := p.tracePath?.isSome
  [.attach (p.mainDevice stdoutLimit)] ++
    (if taped then [.attach (.tape #[])] else []) ++
    (if traced then [.attach (.printer (.buffered { sink := {} }))] else []) ++
    p.settings.setups ++ [.image p.cells] ++
    (if p.settings.trace then [.journal] else []) ++
    [.input p.input, .output (.single (.socket mainSocket))] ++
    (if taped then [.tee (.single (.socket tapeSocket))] else []) ++
    (if traced then [.tee (.single (.socket p.traceSocket))] else [])

/-- The files after the run: the file for all output values has what its printer passed on. -/
def filesAfter (p : Plan) (files : Files) (traced : List UInt8) : Files :=
  match p.tracePath? with
  | none => files
  | some path => files.put path traced

end Plan

/-! ## After the run -/

/-- The bytes that the printer at a socket has passed on. -/
def printed (m : Machine) (socket : Socket) : List UInt8 :=
  match m.bench.devices[socket]? with
  | some (.printer channel) => channel.received.toList
  | _ => []

/-- The values on the tape at a socket; an empty tape has none. -/
def taped? (m : Machine) (socket : Socket) : Option (List Int64) :=
  match m.bench.devices[socket]? with
  | some (.tape values) => if values.isEmpty then none else some values.toList
  | _ => none

/-- The line of the log for a line of the journal. -/
def logLine : Journal.Line → String
  | .robot event => Logger.line "ROBOT" event.text
  | line => Logger.line "TRACE" line.text

/-- The log of a run. -/
def journalLog (m : Machine) : List String := m.bench.journal.lines.toList.map logLine

/-- The dump of the machine for the log, if it is asked for. -/
def dumpLog (s : Settings) (m : Machine) : Except Crash (List String) :=
  if s.dump then
    (m.dumpLines {}).map fun lines => lines.map fun line => Logger.line "DUMP" (String.ofList line)
  else .ok []

/-- The line with the number of painted panels. -/
def countLine (robot : Robot) : List UInt8 :=
  Decimal.asciiBytes (Decimal.digits robot.painted ++ ['\n'])

/-- Prints the number of painted panels, which may fail unnoticed, and the drawing if it is asked
for. -/
def report (s : Settings) (robot : Robot) (sink : ByteSink) :
    EStateM.Result IoError ByteSink Unit :=
  let sink := match sink.write (countLine robot) with
    | .ok () sink => sink
    | .error _ sink => sink
  if s.render then robot.draw sink else .ok () sink

/-- Writes the snapshot, if it is asked for. -/
def saveSnapshot (s : Settings) (m : Machine) (robot? : Option Robot) (files : Files) :
    EStateM.Result Error Files Unit :=
  if s.snapshot.isEmpty then .ok () files
  else
    match (Snapshot.take robot? (taped? m Plan.tapeSocket) m.steps).save files s.snapshot with
    | .error e => .error (.file e) files
    | .ok files => .ok () files

/-- The end of a command whose run gave its results. -/
def finish (p : Plan) (stdoutLimit : Option Int) (m : Machine) (log : List String) (files : Files) :
    Outcome :=
  let robot? := if p.settings.raw then none else m.bench.robot?
  let sink := match stdoutLimit with
    | none => {}
    | some limit => ByteSink.limited limit
  let reported : EStateM.Result IoError (List UInt8) Unit :=
    match robot? with
    | none => .ok () (printed m Plan.mainSocket)
    | some robot =>
      match report p.settings robot sink with
      | .ok () sink => .ok () sink.received.toList
      | .error e sink => .error e sink.received.toList
  match reported with
  | .error e stdout => { conclusion := .failed (.drawing e), stdout, log, files }
  | .ok () stdout =>
    match saveSnapshot p.settings m robot? files with
    | .error e files => { conclusion := .failed e, stdout, log, files }
    | .ok () files => { conclusion := .succeeded, stdout, log, files }

/-- The end of a command after its run. -/
def conclude (r : Request) (p : Plan) (failure? : Option (Failure RunError)) (m : Machine) :
    Outcome :=
  let stdout := printed m Plan.mainSocket
  let files := p.filesAfter r.files (printed m p.traceSocket)
  match dumpLog p.settings m with
  | .error crash => { conclusion := .crashed crash, stdout, files }
  | .ok dumped =>
    let log := journalLog m ++ dumped
    match failure? with
    | some failure => { conclusion := .failed (.run failure), stdout, log, files }
    | none => finish p r.stdoutLimit m log files

/-! ## The whole command -/

/-- A command up to its run: its plan and its machine, or the end of a command that has no run. -/
def prepare (r : Request) : Except Outcome (Plan × Machine) :=
  match Flags.parse r.args with
  | .error .help => .error { conclusion := .succeeded, stderr := usage, files := r.files }
  | .error (.error e) =>
    .error { conclusion := .failed (.flags e), stderr := e.message ++ "\n" ++ usage,
             files := r.files }
  | .ok flags =>
    match plan r flags with
    | .error e => .error { conclusion := .failed e, files := r.files }
    | .ok p =>
      match ({} : Machine).setUpAll (p.setups r.stdoutLimit) with
      | .error crash _ =>
        .error { conclusion := .crashed crash, files := p.filesAfter r.files [] }
      | .ok () m => .ok (p, m)

/-- The run has a time limit. -/
def Plan.timed (p : Plan) : Bool := p.settings.timeout ≠ ⟨0⟩

/-- Runs a command, with `go` to run its machine. -/
def runBy {μ : Type → Type} [Monad μ] (r : Request)
    (go : Plan → Machine → μ (Option (Failure RunError) × Machine)) : μ Outcome :=
  match prepare r with
  | .error outcome => pure outcome
  | .ok (p, m) => do
    let (failure?, m) ← go p m
    return conclude r p failure? m

/-- Runs a command. -/
def run (r : Request) : Outcome :=
  Id.run (runBy r fun p m => pure (m.run (r.clock.patience p.timed)))

end HullRobot.Command
