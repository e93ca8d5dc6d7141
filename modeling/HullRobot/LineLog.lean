/-!
# Logging by lines

A line log takes bytes as they come and logs them line by line, with a label before each line.
Bytes after the last line feed wait for the rest of their line.
-/

namespace HullRobot

/-- A line log: the label of its lines, and the bytes of the line that is not complete. -/
structure LineLog where
  label : List UInt8 := []
  pending : List UInt8 := []
  deriving DecidableEq

namespace LineLog

/-- The complete lines of a byte string without their line feeds, and the bytes after them. -/
def cut : List UInt8 → List (List UInt8) × List UInt8
  | [] => ([], [])
  | b :: rest =>
    match cut rest with
    | (lines, tail) =>
      if b = 10 then ([] :: lines, tail)
      else
        match lines with
        | [] => ([], b :: tail)
        | line :: later => ((b :: line) :: later, tail)

/-- Takes bytes.  Gives the lines to log. -/
def write (l : LineLog) (bytes : List UInt8) : List (List UInt8) × LineLog :=
  let (lines, tail) := cut (l.pending ++ bytes)
  (lines.map (l.label ++ ·), { l with pending := tail })

/-- Logs what is pending as a line, if there is anything. -/
def sync (l : LineLog) : List (List UInt8) × LineLog :=
  if l.pending.isEmpty then ([], l) else ([l.label ++ l.pending], { l with pending := [] })

end LineLog

end HullRobot
