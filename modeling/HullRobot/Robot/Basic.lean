import HullRobot.Decimal
import Std.Data.TreeMap

/-!
# The painting robot

The robot walks over a hull of square panels.  The values written to it alternate: a colour for
the panel under it, then a turn, after which it moves one panel ahead.  Reading from it gives what
its camera saw after the last move.
-/

namespace HullRobot

/-- A panel of the hull; `y` grows southward. -/
structure Point where
  x : Int64
  y : Int64
  deriving DecidableEq

namespace Point

/-- The text of a point. -/
def text (p : Point) : String := "(" ++ Decimal.cell p.x ++ "," ++ Decimal.cell p.y ++ ")"

/-- Points row by row from the north, each row from the west. -/
def rowOrder : Point → Point → Ordering := compareLex (compareOn y) (compareOn x)

instance : Std.TransCmp rowOrder := inferInstanceAs (Std.TransCmp (compareLex _ _))

end Point

/-- The four directions. -/
inductive Heading where
  | north
  | east
  | south
  | west
  deriving DecidableEq

namespace Heading

/-- The name of a direction. -/
def name : Heading → String
  | .north => "north"
  | .east => "east"
  | .south => "south"
  | .west => "west"

/-- The direction after a quarter turn against the clock. -/
def left : Heading → Heading
  | .north => .west
  | .east => .north
  | .south => .east
  | .west => .south

/-- The direction after a quarter turn with the clock. -/
def right : Heading → Heading
  | .north => .east
  | .east => .south
  | .south => .west
  | .west => .north

/-- The point one panel ahead of `p`. -/
def ahead (h : Heading) (p : Point) : Point :=
  match h with
  | .north => { p with y := p.y - 1 }
  | .east => { p with x := p.x + 1 }
  | .south => { p with y := p.y + 1 }
  | .west => { p with x := p.x - 1 }

@[simp] theorem right_left (h : Heading) : h.left.right = h := by cases h <;> rfl

@[simp] theorem left_right (h : Heading) : h.right.left = h := by cases h <;> rfl

/-- The direction with a given code. -/
def ofCode? (code : UInt8) : Option Heading :=
  match code.toNat with
  | 0 => some .north
  | 1 => some .east
  | 2 => some .south
  | 3 => some .west
  | _ => none

/-- The direction that a number of quarter turns with the clock gives, from north. -/
def ofQuarters (n : UInt8) : Heading := (ofCode? (n % 4)).getD .north

/-- The name of the direction with a given code; a code without one is shown itself. -/
def nameOfCode (code : UInt8) : String :=
  match ofCode? code with
  | some h => h.name
  | none => "Heading(" ++ Decimal.nat code.toNat ++ ")"

/-- The direction to the left of a code. -/
def leftOfCode (code : UInt8) : Heading := ofQuarters (code + 3)

/-- The direction to the right of a code. -/
def rightOfCode (code : UInt8) : Heading := ofQuarters (code + 1)

/-- The point one panel ahead of `p`; a code without a direction leads nowhere. -/
def aheadOfCode (code : UInt8) (p : Point) : Point :=
  match ofCode? code with
  | some h => h.ahead p
  | none => p

end Heading

/-- The robot: where it is and looks, the colour of every panel it painted, whether the next value
is a turn, and what its camera sees. -/
structure Robot where
  position : Point := ⟨0, 0⟩
  heading : Heading := .north
  panels : Std.TreeMap Point Int64 Point.rowOrder := {}
  turning : Bool := false
  camera : Int64 := 0

namespace Robot

/-- What the robot does with a value. -/
inductive Event where
  | painted (position : Point) (color : Int64)
  | moved (heading : Heading) (position : Point) (seen : Int64)
  deriving DecidableEq

/-- The text of an event. -/
def Event.text : Event → String
  | .painted position color => "paint " ++ position.text ++ " " ++ Decimal.cell color
  | .moved heading position seen =>
    "turn " ++ heading.name ++ " move " ++ position.text ++ " see " ++ Decimal.cell seen

/-- A robot at the origin that looks north and sees the colour `start`. -/
def new (start : Int64) : Robot := { camera := start }

/-- The colour of a panel, if it was ever painted. -/
def color? (r : Robot) (p : Point) : Option Int64 := r.panels[p]?

/-- Paints the panel under the robot. -/
def paint (r : Robot) (color : Int64) : Robot :=
  { r with panels := r.panels.insert r.position color, turning := true }

/-- Turns left on 0 and right on everything else, then moves one panel. -/
def turn (r : Robot) (command : Int64) : Robot :=
  let heading := if command = 0 then r.heading.left else r.heading.right
  let position := heading.ahead r.position
  { r with heading, position, turning := false, camera := (r.panels[position]?).getD 0 }

/-- Takes one value. -/
def write (r : Robot) (v : Int64) : Robot × Event :=
  if r.turning then
    let r := r.turn v
    (r, .moved r.heading r.position r.camera)
  else (r.paint v, .painted r.position v)

/-- Takes values one after the other. -/
def writeAll (r : Robot) (vs : List Int64) : Robot × List Event :=
  let (r, events) := vs.foldl
    (fun (acc : Robot × List Event) v =>
      let (r, event) := acc.1.write v
      (r, event :: acc.2)) (r, [])
  (r, events.reverse)

/-- How many panels were painted at least once. -/
def painted (r : Robot) : Nat := r.panels.size

/-- The painted panels with their colours, row by row. -/
def panelList (r : Robot) : List (Point × Int64) := r.panels.toList

end Robot

end HullRobot
