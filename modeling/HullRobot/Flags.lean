import HullRobot.Literal
import HullRobot.Settings

/-!
# Flags

The flags of the command line.  A flag is written with one or two dashes.  Its value follows after
an equals sign or as the next argument; a switch takes one only after an equals sign.
-/

namespace HullRobot

/-- What a flag says. -/
inductive Assignment where
  /-- The file with settings. -/
  | config (name : String)
  /-- The values for the input of the machine. -/
  | input (values : String)
  | timeout (d : Duration)
  | trace (on : Bool)
  | memoryLimit (n : Int64)
  | pageSize (n : Int64)
  | start (color : Int64)
  | render (on : Bool)
  | dump (on : Bool)
  | raw (on : Bool)
  | snapshot (name : String)
  | traceFile (name : String)
  deriving DecidableEq

/-- Changes the settings as a flag says. -/
def Assignment.change : Assignment → Settings → Settings
  | .config _, s => s
  | .input _, s => s
  | .timeout d, s => { s with timeout := d }
  | .trace on, s => { s with trace := on }
  | .memoryLimit n, s => { s with memoryLimit := n }
  | .pageSize n, s => { s with pageSize := n }
  | .start color, s => { s with startColor := color }
  | .render on, s => { s with render := on }
  | .dump on, s => { s with dump := on }
  | .raw on, s => { s with raw := on }
  | .snapshot name, s => { s with snapshot := name }
  | .traceFile name, s => { s with traceFile := name }

/-- What kind of value a flag takes, and what it says with it. -/
inductive FlagKind where
  | switch (make : Bool → Assignment)
  | number (make : Int64 → Assignment)
  | duration (make : Duration → Assignment)
  | text (make : String → Assignment)

/-- A flag. -/
structure Flag where
  name : String
  kind : FlagKind
  help : String

/-- The flags, by name. -/
def Flag.all : List Flag :=
  [⟨"config", .text .config, "load settings from a TOML file"⟩,
   ⟨"dump", .switch .dump, "log a machine dump after the run"⟩,
   ⟨"input", .text .input, "comma separated input values for -raw"⟩,
   ⟨"mem-limit", .number .memoryLimit, "enable memory limit"⟩,
   ⟨"page-size", .number .pageSize, "memory page size"⟩,
   ⟨"raw", .switch .raw, "run without the robot, printing every output value"⟩,
   ⟨"render", .switch .render, "draw the painted hull after the count"⟩,
   ⟨"snapshot", .text .snapshot, "write a CBOR result snapshot to this file"⟩,
   ⟨"start", .number .start, "colour of the panel the robot starts on"⟩,
   ⟨"timeout", .duration .timeout, "specify a time limit"⟩,
   ⟨"trace", .switch .trace, "enable trace logging"⟩,
   ⟨"trace-out", .text .traceFile, "write every output value to this file"⟩]

/-- The word for the value of a flag. -/
def FlagKind.word : FlagKind → String
  | .switch _ => ""
  | .number _ => " int"
  | .duration _ => " duration"
  | .text _ => " string"

/-- What the usage says about a flag. -/
def Flag.usage (f : Flag) : String :=
  "  -" ++ f.name ++ f.kind.word ++ "\n    \t" ++ f.help ++ "\n"

/-- The usage of the program. -/
def usage : String := "Usage of hullpaint:\n" ++ String.join (Flag.all.map Flag.usage)

/-- The flags of a command line, in order, and the arguments after them. -/
structure Flags where
  assignments : List Assignment := []
  rest : List String := []
  deriving DecidableEq

namespace Flags

/-- Why the value of a flag is refused. -/
inductive Refusal where
  | unreadable
  | outOfRange
  deriving DecidableEq

/-- The text of a refusal. -/
def Refusal.text : Refusal → String
  | .unreadable => "parse error"
  | .outOfRange => "value out of range"

/-- What is wrong with a command line. -/
inductive Error where
  | badSyntax (argument : String)
  | undefined (name : String)
  | noValue (name : String)
  | badValue (name value : String) (refusal : Refusal)
  | badSwitch (name value : String)
  deriving DecidableEq

/-- The text of an error. -/
def Error.message : Error → String
  | .badSyntax argument => "bad flag syntax: " ++ argument
  | .undefined name => "flag provided but not defined: -" ++ name
  | .noValue name => "flag needs an argument: -" ++ name
  | .badValue name value refusal =>
    "invalid value " ++ Text.quote value.toList ++ " for flag -" ++ name ++ ": " ++ refusal.text
  | .badSwitch name value =>
    "invalid boolean value " ++ Text.quote value.toList ++ " for -" ++ name ++ ": parse error"

/-- How the reading of a command line stops early. -/
inductive Stop where
  /-- The usage was asked for. -/
  | help
  | error (e : Error)
  deriving DecidableEq

/-- The value of a switch. -/
def switch? (value : String) : Option Bool :=
  if ["1", "t", "T", "TRUE", "true", "True"].contains value then some true
  else if ["0", "f", "F", "FALSE", "false", "False"].contains value then some false
  else none

/-- What a flag says with a value. -/
def assign (f : Flag) (value : String) : Except Error Assignment :=
  match f.kind with
  | .switch make =>
    match switch? value with
    | some on => .ok (make on)
    | none => .error (.badSwitch f.name value)
  | .number make =>
    match Literal.parse value.toList with
    | .ok n => .ok (make n)
    | .error .malformed => .error (.badValue f.name value .unreadable)
    | .error .outOfRange => .error (.badValue f.name value .outOfRange)
  | .duration make =>
    match Duration.parse value with
    | .ok d => .ok (make d)
    | .error _ => .error (.badValue f.name value .unreadable)
  | .text make => .ok (make value)

/-- An argument as it is read. -/
inductive Argument where
  /-- Not a flag. -/
  | plain
  /-- Two dashes, which end the flags. -/
  | terminator
  | malformed
  | flag (name : String) (value? : Option String)
  deriving DecidableEq

/-- A name and the value after the first equals sign.  A name does not start with one. -/
def splitValue : List Char → Argument
  | [] => .malformed
  | c :: cs =>
    if c = '-' ∨ c = '=' then .malformed
    else
      let name := String.ofList (c :: cs.takeWhile (· ≠ '='))
      match cs.dropWhile (· ≠ '=') with
      | [] => .flag name none
      | _ :: value => .flag name (some (String.ofList value))

/-- Reads an argument. -/
def Argument.ofString (argument : String) : Argument :=
  match argument.toList with
  | ['-'] => .plain
  | ['-', '-'] => .terminator
  | '-' :: '-' :: cs => splitValue cs
  | '-' :: cs => splitValue cs
  | _ => .plain

/-- The flag with a name.  The names `h` and `help` ask for the usage. -/
def lookUp (name : String) : Except Stop Flag :=
  match Flag.all.find? fun f => f.name = name with
  | some f => .ok f
  | none =>
    if name = "h" ∨ name = "help" then .error .help else .error (.error (.undefined name))

/-- The value that a flag has without being given one. -/
def ownValue? : FlagKind → Option String
  | .switch _ => some "true"
  | _ => none

/-- Adds what a flag says before other flags. -/
def prepend (f : Flag) (value : String) (later : Except Stop Flags) : Except Stop Flags :=
  match assign f value with
  | .error e => .error (.error e)
  | .ok a =>
    match later with
    | .error stop => .error stop
    | .ok flags => .ok { flags with assignments := a :: flags.assignments }

/-- Reads a command line.  The first thing wrong with it counts. -/
def parse : List String → Except Stop Flags
  | [] => .ok {}
  | argument :: rest =>
    match Argument.ofString argument with
    | .plain => .ok { rest := argument :: rest }
    | .terminator => .ok { rest }
    | .malformed => .error (.error (.badSyntax argument))
    | .flag name value? =>
      match lookUp name with
      | .error stop => .error stop
      | .ok f =>
        match value?.or (ownValue? f.kind) with
        | some value => prepend f value (parse rest)
        | none =>
          match rest with
          | [] => .error (.error (.noValue name))
          | value :: rest => prepend f value (parse rest)

/-- The file with settings; the last flag for it counts. -/
def configName (flags : Flags) : String :=
  flags.assignments.foldl (fun name a => match a with | .config name => name | _ => name) ""

/-- The values for the input of the machine; the last flag for them counts. -/
def inputText (flags : Flags) : String :=
  flags.assignments.foldl (fun text a => match a with | .input text => text | _ => text) ""

/-- The settings with the changes that the flags make. -/
def change (flags : Flags) (s : Settings) : Settings :=
  flags.assignments.foldl (fun s a => a.change s) s

end Flags

end HullRobot
