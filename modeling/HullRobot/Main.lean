import HullRobot.Command

/-!
# The program

The outer layer of the command: it reads the files and the input that a command line names, runs
the command, and puts its results in place.
-/

namespace HullRobot

/-- Reads all of a stream. -/
partial def readAll (stream : IO.FS.Stream) (sofar : ByteArray) : IO ByteArray := do
  let chunk ← stream.read 65536
  if chunk.isEmpty then return sofar
  readAll stream (sofar ++ chunk)

/-- There is a directory with this name. -/
def directoryExists (name : String) : IO Bool := do
  try
    discard (IO.FS.realPath (name ++ "/."))
    return true
  catch _ => return false

/-- Adds the directories on the way along a name, and the name itself if it is one. -/
def addDirectories (files : Files) (name : String) : IO Files := do
  let path := Files.plainPath name
  let mut files := files
  for n in List.range path.length do
    let here := path.take (n + 1)
    let shown := if here = [""] then "/" else "/".intercalate here
    if ← directoryExists shown then
      files := { files with directories := here :: files.directories }
  return files

/-- Adds the file with this name, if it can be read. -/
def addFile (files : Files) (name : String) : IO Files := do
  let files ← addDirectories files name
  try
    let bytes ← IO.FS.readBinFile name
    return files.put (Files.plainPath name) bytes.data.toList
  catch _ => return files

/-- What a command line asks for. -/
def gather (args : List String) : IO Command.Request := do
  match Flags.parse args with
  | .error _ => return { args }
  | .ok flags =>
    let mut files : Files := {}
    if flags.configName ≠ "" then files ← addFile files flags.configName
    match flags.rest with
    | [name] => if name ≠ "" ∧ name ≠ "-" then files ← addFile files name
    | _ => pure ()
    if let .ok s := Command.settings flags files then
      for name in [s.traceFile, s.snapshot] do
        if name ≠ "" then files ← addDirectories files name
    let fromStdin := flags.rest.all fun name => name = "" ∨ name = "-"
    let stdin ← if fromStdin then readAll (← IO.getStdin) .empty else pure .empty
    return { args, files, stdin := stdin.data.toList, stdoutLimit := some (-1) }

/-- Carries out instructions until the machine stops or the time is up. -/
partial def runUntil (deadline : Nat) (m : Machine) : IO (Stop × Machine) := do
  if deadline ≤ (← IO.monoNanosNow) then return Machine.runSteps .expired 0 m
  match m.stepTimes 10000 with
  | (some stop, m) => return (stop, m)
  | (none, m) => runUntil deadline m

/-- Runs a command, with its time limit if it has one. -/
def perform (r : Command.Request) : IO Command.Outcome :=
  Command.runBy r fun p m =>
    if p.timed then
      m.runBy fun m => do
        let deadline := (← IO.monoNanosNow) + p.settings.timeout.nanoseconds.toInt.toNat
        runUntil deadline m
    else return m.run (r.clock.patience p.timed)

/-- Puts the results of a command in place. -/
def publish (r : Command.Request) (outcome : Command.Outcome) : IO Unit := do
  let stdout ← IO.getStdout
  stdout.write ⟨outcome.stdout.toArray⟩
  stdout.flush
  let stderr ← IO.getStderr
  stderr.putStr outcome.stderr
  for line in outcome.log do
    stderr.putStr line
  for (path, bytes) in outcome.files.changedSince r.files do
    IO.FS.writeBinFile (Files.nameOf path) ⟨bytes.toArray⟩
  match outcome.conclusion with
  | .succeeded => pure ()
  | .failed e => stderr.putStr (Logger.line "ERROR" e.message)
  | .crashed c => stderr.putStr ("panic: " ++ c.message ++ "\n")

end HullRobot

/-- Runs the command on the arguments of the program. -/
def main (args : List String) : IO UInt32 := do
  let r ← HullRobot.gather args
  let outcome ← HullRobot.perform r
  HullRobot.publish r outcome
  return outcome.conclusion.exitCode.toUInt32
