import HullRobot.Crash

/-!
# Guarded runs

A run under guard may stop in the middle of its work.  If it halts, the guard gives back the error
it halted with, or nothing.  A crash and an exit become errors that tell the name of the run.
-/

namespace HullRobot

/-- What a guarded run gives back when it did not end well; `ε` is its own kind of errors. -/
inductive Failure (ε : Type) where
  /-- An error of the run. -/
  | plain (error : ε)
  /-- An error with a note before it. -/
  | noted (note : String) (inner : Failure ε)
  /-- A note where no error follows. -/
  | noteOnly (note : String)
  /-- The run called `name` crashed over a value that is no error. -/
  | crashedOn (name value : String)
  /-- The run called `name` crashed over an error. -/
  | crashedBy (name : String) (inner : Failure ε)
  /-- The run called `name` left without a result. -/
  | exited (name : String)
  deriving DecidableEq

namespace Failure

variable {ε : Type}

/-- How the text of a crash starts; a run need not have a name. -/
def crashLabel (name : String) : String :=
  if name.isEmpty then "paniced: " else name ++ " paniced: "

/-- The text of a failure. -/
def message (text : ε → String) : Failure ε → String
  | .plain error => text error
  | .noted note inner => note ++ ": " ++ message text inner
  | .noteOnly note => note ++ ": %!w(<nil>)"
  | .crashedOn name value => crashLabel name ++ value
  | .crashedBy name inner => crashLabel name ++ message text inner
  | .exited name =>
    if name.isEmpty then "runtime.Goexit called" else name ++ " called runtime.Goexit"

/-- The failure is a crash. -/
def isCrash : Failure ε → Bool
  | .crashedOn .. => true
  | .crashedBy .. => true
  | _ => false

/-- The failure is or holds a crash. -/
def holdsCrash : Failure ε → Bool
  | .noted _ inner => inner.holdsCrash
  | .crashedOn .. => true
  | .crashedBy .. => true
  | _ => false

/-- The failure is or holds an exit. -/
def holdsExit : Failure ε → Bool
  | .noted _ inner => inner.holdsExit
  | .crashedBy _ inner => inner.holdsExit
  | .exited _ => true
  | _ => false

/-- The error of the run that the failure is or holds. -/
def error? : Failure ε → Option ε
  | .plain error => some error
  | .noted _ inner => inner.error?
  | .crashedBy _ inner => inner.error?
  | _ => none

/-- Puts a note before a result.  That is an error also if there was none before. -/
def note (text : String) : Option (Failure ε) → Failure ε
  | some error => .noted text error
  | none => .noteOnly text

end Failure

/-- How a run ended. -/
inductive Ending (ε : Type) where
  | returned (result : Option (Failure ε))
  | halted (result : Option (Failure ε))
  | crashedOn (value : String)
  | crashedBy (error : Failure ε)
  | exited
  deriving DecidableEq

namespace Ending

variable {ε : Type}

/-- A run that crashes over a result; to crash over no error is a crash of its own. -/
def crashedOver : Option (Failure ε) → Ending ε
  | some error => .crashedBy error
  | none => .crashedOn Crash.noReason.message

/-- A run that takes element `index` of `count`. -/
def indexing (index : Int) (count : Nat) : Ending ε :=
  if 0 ≤ index ∧ index < count then .returned none
  else .crashedOn (Crash.outOfRange index count).message

/-- What the guard of the run called `name` gives back. -/
def recovered (name : String) : Ending ε → Option (Failure ε)
  | .returned result => result
  | .halted result => result
  | .crashedOn value => some (.crashedOn name value)
  | .crashedBy error => some (.crashedBy name error)
  | .exited => some (.exited name)

end Ending

/-- The result after closing `what`: a failure to close it counts unless there was an error
before. -/
def closing {ε : Type} (earlier : Option (Failure ε)) (close : Option (Failure ε)) (what : String) :
    Option (Failure ε) :=
  match earlier, close with
  | some error, _ => some error
  | none, some error => some (.noted ("cannot close " ++ what) error)
  | none, none => none

end HullRobot
