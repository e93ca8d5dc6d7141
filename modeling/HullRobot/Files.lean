import HullRobot.Decimal
import HullRobot.Text.Utf8

/-!
# Files

Files and directories by their paths.  A directory exists if it is listed or some file lies in it.
Names are resolved step by step, as a file system does it.
-/

namespace HullRobot

/-- A path from the working directory.  It may start with steps upwards, and one that starts with an
empty step is a path from the root. -/
abbrev Path := List String

/-- Regular files with their contents, and directories that are known besides. -/
structure Files where
  entries : List (Path × List UInt8) := []
  directories : List Path := [["", "tmp"]]
  deriving DecidableEq

namespace Files

/-- Why a file cannot be used. -/
inductive Reason where
  | notExist
  | isDirectory
  | notDirectory
  | invalidName
  | nameTooLong
  deriving DecidableEq

/-- The text of a reason. -/
def Reason.text : Reason → String
  | .notExist => "no such file or directory"
  | .isDirectory => "is a directory"
  | .notDirectory => "not a directory"
  | .invalidName => "invalid argument"
  | .nameTooLong => "file name too long"

/-- What was tried with a file. -/
inductive Action where
  | opening
  | reading
  deriving DecidableEq

/-- The word for an action. -/
def Action.word : Action → String
  | .opening => "open"
  | .reading => "read"

/-- A failure, with the name that was used. -/
structure Error where
  action : Action
  name : String
  reason : Reason
  deriving DecidableEq

/-- The text of a failure. -/
def Error.message (e : Error) : String := e.action.word ++ " " ++ e.name ++ ": " ++ e.reason.text

/-- The file that is always there, reads as empty and keeps nothing. -/
def nullDevice : Path := ["", "dev", "null"]

/-- The content of the file at a path. -/
def content? (fs : Files) (path : Path) : Option (List UInt8) :=
  if path = nullDevice then some [] else (fs.entries.find? fun e => e.1 == path).map (·.2)

/-- The path is that of the working directory or of one above, it is listed as a directory, or some
file lies below it. -/
def isDirectory (fs : Files) (path : Path) : Bool :=
  path.all (· = "..") || fs.directories.contains path ||
    (nullDevice :: fs.entries.map (·.1)).any fun file => path.isPrefixOf file && file != path

/-- Puts a file in place of what was there. -/
def put (fs : Files) (path : Path) (content : List UInt8) : Files :=
  if path = nullDevice then fs
  else { fs with entries := (fs.entries.filter fun e => e.1 != path) ++ [(path, content)] }

/-- The number of bytes of a name. -/
def byteCount (name : String) : Nat := (Text.bytes name).length

/-- The longest step of a path, in bytes. -/
def maxStep : Nat := 255

/-- The longest name, in bytes. -/
def maxName : Nat := 4095

/-- The directory one step up.  The root is above itself. -/
def above (here : Path) : Path :=
  if here.all (· = "..") then here ++ [".."] else if here = [""] then here else here.dropLast

/-- Goes down a step from the directory `here`, to another directory. -/
def descend (fs : Files) (here : Path) (step : String) : Except Reason Path :=
  if step = "." then .ok here
  else if step = ".." then .ok (above here)
  else if maxStep < byteCount step then .error .nameTooLong
  else if fs.isDirectory (here ++ [step]) then .ok (here ++ [step])
  else if (fs.content? (here ++ [step])).isSome then .error .notDirectory
  else .error .notExist

/-- The pieces of a text between its slashes. -/
def pieces : List Char → List (List Char)
  | [] => [[]]
  | c :: rest =>
    if c = '/' then [] :: pieces rest
    else
      match pieces rest with
      | [] => [[c]]
      | piece :: others => (c :: piece) :: others

/-- The steps of a name.  Some are empty: before a slash at the start, after one at the end, and
between two slashes in a row. -/
def stepsOf (name : String) : List String := (pieces name.toList).map String.ofList

/-- The directory of a name and the last step from there. -/
def locate (fs : Files) (name : String) : Except Reason (Path × String) :=
  if name.toList.contains '\x00' then .error .invalidName
  else if maxName < byteCount name then .error .nameTooLong
  else if name.isEmpty then .error .notExist
  else
    let steps := (stepsOf name).filter (· ≠ "")
    let start : Path := if name.toList.head? = some '/' then [""] else []
    match steps.getLast? with
    | none => .ok (start, ".")
    | some last => do
      let here ← steps.dropLast.foldlM (descend fs) start
      .ok (here, last)

/-- What a step leads to. -/
inductive Target where
  | file (path : Path)
  | directory
  /-- Nothing, but a file can be made there. -/
  | vacant (path : Path)
  | nowhere (reason : Reason)
  deriving DecidableEq

/-- What a step from the directory `here` leads to. -/
def target (fs : Files) (here : Path) (step : String) : Target :=
  match fs.descend here step with
  | .ok _ => .directory
  | .error .notDirectory => .file (here ++ [step])
  | .error .notExist => .vacant (here ++ [step])
  | .error reason => .nowhere reason

/-- The name ends in a slash, so that it can only be a directory's. -/
def isSlashed (name : String) : Bool := name.toList.getLast? = some '/'

/-- The path of a name whose steps are all directories but for the last one. -/
def plainPath (name : String) : Path :=
  let step (here : Path) (s : String) : Path :=
    if s = "" ∨ s = "." then here else if s = ".." then above here else here ++ [s]
  match stepsOf name with
  | "" :: rest => rest.foldl step [""]
  | steps => steps.foldl step []

/-- The content of a file. -/
def read (fs : Files) (name : String) : Except Error (List UInt8) :=
  match fs.locate name with
  | .error reason => .error ⟨.opening, name, reason⟩
  | .ok (here, step) =>
    match fs.target here step with
    | .file path =>
      if isSlashed name then .error ⟨.opening, name, .notDirectory⟩
      else .ok ((fs.content? path).getD [])
    | .directory => .error ⟨.reading, name, .isDirectory⟩
    | .vacant _ => .error ⟨.opening, name, .notExist⟩
    | .nowhere reason => .error ⟨.opening, name, reason⟩

/-- The path of a file that may be written.  A name that ends in a slash is refused before its last
step is looked at. -/
def writable (fs : Files) (name : String) : Except Error Path :=
  match fs.locate name with
  | .error reason => .error ⟨.opening, name, reason⟩
  | .ok (here, step) =>
    if isSlashed name then .error ⟨.opening, name, .isDirectory⟩
    else
      match fs.target here step with
      | .file path => .ok path
      | .vacant path => .ok path
      | .directory => .error ⟨.opening, name, .isDirectory⟩
      | .nowhere reason => .error ⟨.opening, name, reason⟩

/-- The files that are new or have another content than in `before`. -/
def changedSince (fs before : Files) : List (Path × List UInt8) :=
  fs.entries.filter fun e => before.content? e.1 != some e.2

/-- The path stays in the working directory. -/
def isInside (path : Path) : Bool := path.head? ≠ some "" ∧ path.head? ≠ some ".."

/-- The name that spells out a path. -/
def nameOf (path : Path) : String := String.intercalate "/" path

end Files

end HullRobot
