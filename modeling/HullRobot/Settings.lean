import HullRobot.Duration
import HullRobot.Files
import HullRobot.Machine.Setup
import HullRobot.Toml.Document

/-!
# Settings

The settings of a run come from defaults, a TOML file and flags.
-/

namespace HullRobot

/-- The settings of a run. -/
structure Settings where
  /-- How many cells a page of memory has; zero stands for the machine's own choice. -/
  pageSize : Int64 := 256
  /-- How many cells memory may have; zero stands for no limit. -/
  memoryLimit : Int64 := 0
  /-- How long the machine may run; zero stands for no limit. -/
  timeout : Duration := ⟨0⟩
  trace : Bool := false
  /-- The colour of the panel that the robot starts on. -/
  startColor : Int64 := 0
  render : Bool := false
  dump : Bool := false
  /-- Run without the robot. -/
  raw : Bool := false
  /-- The file for a snapshot, if there is to be one. -/
  snapshot : String := ""
  /-- The file for all output values, if there is to be one. -/
  traceFile : String := ""
  deriving DecidableEq

namespace Settings

/-- Why there are no settings. -/
inductive Error where
  | unreadable (name : String) (cause : Files.Error)
  /-- The file is no TOML, or a value is of the wrong type. -/
  | malformed (name : String)
  | unknownKeys (name : String) (keys : List String)
  | badPageSize (n : Int64)
  | badMemoryLimit (n : Int64)
  | badTimeout (d : Duration)
  deriving DecidableEq

/-- The text of an error. -/
def Error.message : Error → String
  | .unreadable name cause => "cannot load config " ++ name ++ ": " ++ cause.message
  | .malformed name => "cannot load config " ++ name
  | .unknownKeys name keys => "unknown config keys in " ++ name ++ ": " ++ ", ".intercalate keys
  | .badPageSize n => "invalid machine.page-size " ++ Decimal.cell n
  | .badMemoryLimit n => "invalid machine.mem-limit " ++ Decimal.cell n
  | .badTimeout d => "invalid machine.timeout " ++ d.text

/-- Checks that no setting is negative that may not be. -/
def validate (s : Settings) : Except Error Unit :=
  if s.pageSize < 0 then .error (.badPageSize s.pageSize)
  else if s.memoryLimit < 0 then .error (.badMemoryLimit s.memoryLimit)
  else if s.timeout.nanoseconds < 0 then .error (.badTimeout s.timeout)
  else .ok ()

/-- What the settings change on a machine. -/
def setups (s : Settings) : List Machine.Setup :=
  (if s.pageSize = 0 then [] else [.pageSize s.pageSize]) ++
    (if s.memoryLimit = 0 then [] else [.memoryLimit s.memoryLimit])

/-! ## Values from a document -/

/-- An integer. -/
def integer? : Toml.Node → Option Int64
  | .leaf (.integer i) => some i
  | _ => none

/-- A boolean. -/
def boolean? : Toml.Node → Option Bool
  | .leaf (.boolean b) => some b
  | _ => none

/-- A text. -/
def text? : Toml.Node → Option String
  | .leaf (.text s) => some s
  | _ => none

/-- A duration, from its text.  An integer counts as its decimal text. -/
def duration? : Toml.Node → Option Duration
  | .leaf (.text s) => (Duration.parse s).toOption
  | .leaf (.integer i) => (Duration.parse (Decimal.cell i)).toOption
  | _ => none

/-- A setting in a file: its table and key, and how it is set. -/
structure Item where
  table : String
  name : String
  set : Settings → Toml.Node → Option Settings

/-- All settings that a file may have. -/
def items : List Item :=
  [{ table := "machine", name := "page-size",
     set s node := (integer? node).map fun pageSize => { s with pageSize } },
   { table := "machine", name := "mem-limit",
     set s node := (integer? node).map fun memoryLimit => { s with memoryLimit } },
   { table := "machine", name := "timeout",
     set s node := (duration? node).map fun timeout => { s with timeout } },
   { table := "machine", name := "trace",
     set s node := (boolean? node).map fun trace => { s with trace } },
   { table := "robot", name := "start-color",
     set s node := (integer? node).map fun startColor => { s with startColor } },
   { table := "output", name := "render",
     set s node := (boolean? node).map fun render => { s with render } },
   { table := "output", name := "dump",
     set s node := (boolean? node).map fun dump => { s with dump } },
   { table := "output", name := "raw",
     set s node := (boolean? node).map fun raw => { s with raw } },
   { table := "output", name := "snapshot",
     set s node := (text? node).map fun snapshot => { s with snapshot } },
   { table := "output", name := "trace",
     set s node := (text? node).map fun traceFile => { s with traceFile } }]

/-- A character with its case dropped.  The long s and the Kelvin sign count as letters. -/
def foldCase (c : Char) : Char :=
  if c = 'ſ' then 's' else if c.toNat = 0x212a then 'k' else c.toLower

/-- The names are the same but for case. -/
def sameName (a b : String) : Bool := a.toList.map foldCase = b.toList.map foldCase

/-- The one of `names` that a key stands for: an equal one, else one that differs in case. -/
def named? {α : Type} (name : α → String) (key : String) (candidates : List α) : Option α :=
  (candidates.find? fun a => name a = key).or (candidates.find? fun a => sameName (name a) key)

/-- Settings, and the keys that they were taken from. -/
structure Taken where
  settings : Settings
  keys : List Toml.Key := []

/-- Takes the settings from the entries of a table.  Keys that name no setting are passed over. -/
def takeTable (key table : String) : Taken → Toml.Entries → Option Taken
  | t, [] => some t
  | t, (name, node) :: rest =>
    match named? Item.name name (items.filter fun item => item.table = table) with
    | none => takeTable key table t rest
    | some item => do
      let settings ← item.set t.settings node
      takeTable key table { settings, keys := [key, name] :: t.keys } rest

/-- Takes the settings from the tables of a document. -/
def takeRoot : Taken → Toml.Entries → Option Taken
  | t, [] => some t
  | t, (key, node) :: rest =>
    match named? id key ["machine", "robot", "output"] with
    | none => takeRoot t rest
    | some table =>
      match node with
      | .table entries => do
        let t ← takeTable key table { t with keys := [key] :: t.keys } entries
        takeRoot t rest
      | _ => none

/-- The order of texts by their bytes. -/
def bytesLe (a b : String) : Bool := !(decide (Text.bytes b < Text.bytes a))

/-- The settings in the bytes of the file `name`. -/
def ofBytes (name : String) (bytes : List UInt8) : Except Error Settings :=
  match Toml.Document.ofBytes bytes with
  | none => .error (.malformed name)
  | some document =>
    match takeRoot { settings := {} } document.root with
    | none => .error (.malformed name)
    | some t =>
      let unknown := document.keys.filter fun key => !t.keys.contains key
      if unknown.isEmpty then
        match t.settings.validate with
        | .ok () => .ok t.settings
        | .error e => .error e
      else .error (.unknownKeys name ((unknown.map Toml.Key.text).mergeSort bytesLe))

/-- The settings in a file.  No file has the defaults. -/
def load (files : Files) (name : String) : Except Error Settings :=
  if name.isEmpty then .ok {}
  else
    match files.read name with
    | .error e => .error (.unreadable name e)
    | .ok bytes => ofBytes name bytes

end Settings

end HullRobot
