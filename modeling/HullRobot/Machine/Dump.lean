import HullRobot.Machine.Basic

/-!
# Dumps

A dump shows the registers of a machine and every row of its memory that is not all zero.
-/

namespace HullRobot.Machine

/-- How a dump is laid out: the cells of a row, and the least width of an address. -/
structure Layout where
  row : Int := 0
  width : Int := 0
  deriving DecidableEq

/-- The largest width that can be asked for. -/
def largestWidth : Nat := 1000000

/-- A numeral with blanks after it, up to `width` characters. -/
def padded (width : Int) (n : Nat) : List Char :=
  if largestWidth < width.natAbs then "%!(BADWIDTH)".toList ++ Decimal.digits n
  else Decimal.digits n ++ List.replicate (width.natAbs - (Decimal.digits n).length) ' '

/-- The rows of a page, with the address of each. -/
def rows (row : Nat) (base : Nat) (cells : Array Int64) : List (Nat × List Int64) :=
  (List.range ((cells.size + row - 1) / row)).map fun i =>
    (base + i * row, (cells.extract (i * row) ((i + 1) * row)).toList)

/-- The line for a row. -/
def rowLine (width : Int) (address : Nat) (cells : List Int64) : List Char :=
  ' ' :: ' ' :: '@' :: padded width address ++
    cells.flatMap fun v => ' ' :: Decimal.ofInt v.toInt

/-- The lines for the rows of a page that are not all zero. -/
def pageLines (row : Nat) (width : Int) (page : Nat × Array Int64) : List (List Char) :=
  (rows row page.1 page.2).filterMap fun (address, cells) =>
    if cells.all (· = 0) then none else some (rowLine width address cells)

/-- The lines of a dump. -/
def dumpLines (m : Machine) (layout : Layout) : Except Crash (List (List Char)) := do
  let size ← m.memory.size
  let pages := m.memory.pages
  let width := if layout.width = 0 then ((Decimal.digits size).length : Int) else layout.width
  let row := if layout.row = 0 then 8 else layout.row
  if row < 0 ∧ pages.any (fun page => !page.2.isEmpty) then throw (.negativeRow row)
  pure <|
    ["# VM Dump".toList,
      "  ip: ".toList ++ Decimal.ofInt m.ip.toInt,
      "  rb: ".toList ++ Decimal.ofInt m.base.toInt,
      "  steps: ".toList ++ Decimal.digits m.steps.toNat] ++
    (if m.halted then ["  halted".toList] else []) ++
    ["# Memory pages:".toList ++ Decimal.digits pages.length ++ " size:".toList ++
      Decimal.digits size] ++
    pages.flatMap (pageLines row.toNat width)

/-- A dump as text. -/
def dump (m : Machine) (layout : Layout) : Except Crash String :=
  (m.dumpLines layout).map fun lines => String.ofList (lines.flatMap fun line => line ++ ['\n'])

end HullRobot.Machine
