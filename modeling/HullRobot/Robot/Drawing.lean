import HullRobot.Robot.Basic
import HullRobot.Stream.Basic

/-!
# Drawing the hull

The drawing is the smallest rectangle around all painted panels, a line for each row: `#` for a
panel of colour 1 and `.` for every other one.
-/

namespace HullRobot.Robot

/-- A rectangle of points, both corners included. -/
structure Frame where
  low : Point
  high : Point
  deriving DecidableEq

/-- The frame grown to hold `p`. -/
def Frame.extend (f : Frame) (p : Point) : Frame :=
  { low := ⟨min f.low.x p.x, min f.low.y p.y⟩, high := ⟨max f.high.x p.x, max f.high.y p.y⟩ }

/-- The frame that grows around panels, gone through in this order. -/
def Frame.around : List (Point × Int64) → Option Frame
  | [] => none
  | (p, _) :: rest => some (rest.foldl (fun f q => f.extend q.1) ⟨p, p⟩)

/-- The smallest frame around all painted panels. -/
def frame? (r : Robot) : Option Frame := Frame.around r.panelList

/-- The coordinates from `low` to `high`. -/
def span (low high : Int64) : List Int64 :=
  (List.range (high.toInt - low.toInt + 1).toNat).map fun i => low + Int64.ofNat i

/-- The mark for a panel. -/
def mark (r : Robot) (p : Point) : Char := if r.panels[p]? = some 1 then '#' else '.'

/-- The drawing, line by line. -/
def drawing (r : Robot) : List (List Char) :=
  match r.frame? with
  | none => []
  | some f =>
    (span f.low.y f.high.y).map fun y => (span f.low.x f.high.x).map fun x => r.mark ⟨x, y⟩

/-- The drawing as text. -/
def drawingText (r : Robot) : String :=
  String.ofList (r.drawing.flatMap fun row => row ++ ['\n'])

/-- Writes lines into a buffer.  A failure is kept by the buffer, so it shows at the flush. -/
def drawLines (b : Buffered) : List (List Char) → Buffered
  | [] => b
  | row :: rest =>
    match b.write (Decimal.asciiBytes (row ++ ['\n'])) with
    | .ok () b => drawLines b rest
    | .error _ b => drawLines b rest

/-- Draws the hull into a sink, through a buffer. -/
def draw (r : Robot) (sink : ByteSink) : EStateM.Result IoError ByteSink Unit :=
  match (drawLines { sink } r.drawing).flush with
  | .ok () b => .ok () b.sink
  | .error e b => .error e b.sink

end HullRobot.Robot
