import HullRobot.Stream.Basic
import HullRobot.Text.Template

/-!
# The logger

A logger writes each message on a line of its own, with its level before it.  It remembers an exit
code: 1 after a message on the error level, and 2 after a message that could not be written.
-/

namespace HullRobot

/-- A sink that a logger can write to, and how often it was closed.  Not every sink can be. -/
structure LogSink where
  sink : ByteSink := {}
  closable : Bool := false
  closed : Nat := 0
  deriving DecidableEq

/-- A logger: the sinks it knows, which of them it writes to, and its exit code. -/
structure Logger where
  sinks : Array LogSink := #[]
  output : Option Nat := none
  exitCode : Nat := 0
  deriving DecidableEq

namespace Logger

/-- The line for a message. -/
def line (level body : String) : String :=
  let text := if level.isEmpty then body else level ++ ": " ++ body
  if text.isEmpty ∨ text.endsWith "\n" then text else text ++ "\n"

/-- Closes a sink if that is possible. -/
def close (s : LogSink) : LogSink := if s.closable then { s with closed := s.closed + 1 } else s

/-- Writes to another sink, or to none, from now on.  The sink before is closed. -/
def setOutput (l : Logger) (output : Option Nat) : Logger :=
  match l.output with
  | some old =>
    if output = some old then l else { l with sinks := l.sinks.modify old close, output }
  | none => { l with output }

/-- Writes a line.  Nothing is written without a sink, and an empty line is not passed to it. -/
def writeLine (l : Logger) (text : String) : EStateM.Result IoError Logger Unit :=
  match l.output with
  | none => .ok () l
  | some i =>
    match l.sinks[i]? with
    | none => .ok () l
    | some s =>
      if text.isEmpty then .ok () l
      else
        match s.sink.write (Text.bytes text) with
        | .ok () sink => .ok () { l with sinks := l.sinks.setIfInBounds i { s with sink } }
        | .error e sink => .error e { l with sinks := l.sinks.setIfInBounds i { s with sink } }

/-- Logs a message. -/
def log (l : Logger) (level body : String) (args : List Text.Argument) : Logger :=
  match l.writeLine (line level (Text.message body args)) with
  | .ok () l => l
  | .error _ l => { l with exitCode := 2 }

/-- Logs a message on the error level. -/
def logError (l : Logger) (body : String) (args : List Text.Argument) : Logger :=
  match l.writeLine (line "ERROR" (Text.message body args)) with
  | .ok () l => { l with exitCode := 1 }
  | .error _ l => { l with exitCode := 2 }

/-- Logs an error if there is one. -/
def logErrorIf (l : Logger) : Option String → Logger
  | none => l
  | some error => l.logError "%v" [.text error]

end Logger

end HullRobot
