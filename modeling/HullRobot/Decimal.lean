/-!
# Decimal numerals

Numbers are written in decimal without grouping, and with a minus sign if they are negative.
`read?` is the way back for unsigned numerals.
-/

namespace HullRobot.Decimal

/-- The digits of `n`, most significant first; zero is `0`. -/
def digits (n : Nat) : List Char := Nat.toDigits 10 n

/-- The numeral of an integer. -/
def ofInt (i : Int) : List Char :=
  if i < 0 then '-' :: digits i.natAbs else digits i.natAbs

/-- The numeral of a natural number as text. -/
def nat (n : Nat) : String := String.ofList (digits n)

/-- The numeral of an integer as text. -/
def int (i : Int) : String := String.ofList (ofInt i)

/-- The numeral of a cell as text. -/
def cell (v : Int64) : String := int v.toInt

/-- The value of a decimal digit. -/
def digitValue (c : Char) : Nat := c.toNat - '0'.toNat

/-- Appends the digits of `cs` to the number `n`. -/
def extend (n : Nat) (cs : List Char) : Nat :=
  cs.foldl (fun acc c => 10 * acc + digitValue c) n

/-- The number that a non-empty run of digits stands for. -/
def read? (cs : List Char) : Option Nat :=
  if cs.isEmpty || !cs.all Char.isDigit then none else some (extend 0 cs)

/-- The characters of an ASCII text as bytes. -/
def asciiBytes (cs : List Char) : List UInt8 := cs.map fun c => c.toNat.toUInt8

end HullRobot.Decimal
