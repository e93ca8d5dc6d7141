import HullRobot.Decimal
import HullRobot.Rounding
import HullRobot.Text.Quoted

/-!
# Durations

A duration is a number of nanoseconds.  It is written as numbers with units, such as `1h2m3.5s`.
-/

namespace HullRobot

/-- A span of time in nanoseconds. -/
structure Duration where
  nanoseconds : Int64
  deriving DecidableEq

namespace Duration

/-- Why a text is no duration. -/
inductive Cause where
  /-- It is not made of numbers and units, or too long a time. -/
  | invalid
  /-- A number has no unit. -/
  | missingUnit
  | unknownUnit (unit : List Char)
  deriving DecidableEq

/-- The text of an error in the duration `source`. -/
def Cause.message (source : String) : Cause → String
  | .invalid => "time: invalid duration " ++ Text.quoteBytes source
  | .missingUnit => "time: missing unit in duration " ++ Text.quoteBytes source
  | .unknownUnit unit =>
    "time: unknown unit " ++ Text.quoteBytes (String.ofList unit) ++ " in duration " ++
      Text.quoteBytes source

/-- The nanoseconds of a unit. -/
def unit? (unit : List Char) : Option Nat :=
  if unit = ['n', 's'] then some 1
  else if unit = ['u', 's'] ∨ unit = ['µ', 's'] ∨ unit = ['μ', 's'] then some 1000
  else if unit = ['m', 's'] then some 1000000
  else if unit = ['s'] then some 1000000000
  else if unit = ['m'] then some 60000000000
  else if unit = ['h'] then some 3600000000000
  else none

/-- The largest number that is read, and the longest time there is. -/
def bound : Nat := 0x8000000000000000

/-- The digits after a point: their number, and the power of ten it is to be divided by.  Digits
that would take the number over the bound are passed over. -/
def fraction (digits : List Char) : Nat × Binary :=
  let step (acc : Nat × Binary × Bool) (c : Char) : Nat × Binary × Bool :=
    let (n, scale, full) := acc
    let next := 10 * n + Decimal.digitValue c
    if full || bound < next then (n, scale, true) else (next, scale.mul (.ofNat 10), false)
  let (n, scale, _) := digits.foldl step (0, .ofNat 1, false)
  (n, scale)

/-- The nanoseconds of a fraction of a unit. -/
def fractionTime (unit : Nat) (digits : List Char) : Nat :=
  let (n, scale) := fraction digits
  if n = 0 then 0 else ((Binary.ofNat n).mul ((Binary.ofNat unit).div scale)).floor

/-- The nanoseconds of `whole.part unit`. -/
def term (whole part unit : List Char) : Except Cause Nat :=
  let n := Decimal.extend 0 whole
  if bound < n ∨ (whole.isEmpty ∧ part.isEmpty) then .error .invalid
  else if unit.isEmpty then .error .missingUnit
  else
    match unit? unit with
    | none => .error (.unknownUnit unit)
    | some size =>
      let time := n * size + fractionTime size part
      if bound / size < n ∨ bound < time then .error .invalid else .ok time

/-- The character belongs to a number. -/
def isNumeric (c : Char) : Bool := c = '.' || c.isDigit

/-- The sum of the terms of a text.  It is kept in 64 bits. -/
def sum : (rounds : Nat) → (total : Nat) → List Char → Except Cause Nat
  | 0, total, _ => .ok total
  | _, total, [] => .ok total
  | rounds + 1, total, c :: cs =>
    if isNumeric c then
      let whole := (c :: cs).takeWhile Char.isDigit
      let rest := (c :: cs).dropWhile Char.isDigit
      let pointed := rest.head? = some '.'
      let part := if pointed then (rest.drop 1).takeWhile Char.isDigit else []
      let rest := if pointed then (rest.drop 1).dropWhile Char.isDigit else rest
      match term whole part (rest.takeWhile fun c => !isNumeric c) with
      | .error cause => .error cause
      | .ok time =>
        let total := (total + time) % UInt64.size
        if bound < total then .error .invalid
        else sum rounds total (rest.dropWhile fun c => !isNumeric c)
    else .error .invalid

/-- Reads a duration: an optional sign, then `0` or terms. -/
def parse (source : String) : Except Cause Duration :=
  let cs := source.toList
  let signed := cs.head? = some '-' ∨ cs.head? = some '+'
  let negative := cs.head? = some '-'
  let body := if signed then cs.drop 1 else cs
  if body = ['0'] then .ok ⟨0⟩
  else if body.isEmpty then .error .invalid
  else
    match sum body.length 0 body with
    | .error cause => .error cause
    | .ok total =>
      if negative then .ok ⟨Int64.ofInt (-(total : Int))⟩
      else if bound ≤ total then .error .invalid
      else .ok ⟨Int64.ofNat total⟩

/-- The last `places` digits of `n` after a point, without zeros at the end. -/
def decimals (places n : Nat) : List Char :=
  let digits := Decimal.digits (n % Nat.pow 10 places)
  let padded := List.replicate (places - digits.length) '0' ++ digits
  let kept := (padded.reverse.dropWhile (· = '0')).reverse
  if kept.isEmpty then [] else '.' :: kept

/-- A number of units of `10 ^ places` nanoseconds. -/
def inUnits (places n : Nat) : List Char :=
  Decimal.digits (n / Nat.pow 10 places) ++ decimals places n

/-- The text of a time below a second. -/
def shortText (n : Nat) : List Char :=
  if n = 0 then ['0', 's']
  else if n < 1000 then inUnits 0 n ++ ['n', 's']
  else if n < 1000000 then inUnits 3 n ++ ['µ', 's']
  else inUnits 6 n ++ ['m', 's']

/-- The text of a time of a second or more. -/
def longText (n : Nat) : List Char :=
  let seconds := n / 1000000000
  let minutes := seconds / 60
  let hours := minutes / 60
  (if hours = 0 then [] else Decimal.digits hours ++ ['h']) ++
    (if minutes = 0 then [] else Decimal.digits (minutes % 60) ++ ['m']) ++
    Decimal.digits (seconds % 60) ++ decimals 9 n ++ ['s']

/-- The text of a duration. -/
def text (d : Duration) : String :=
  let n := d.nanoseconds.toInt.natAbs
  let body := if n < 1000000000 then shortText n else longText n
  String.ofList (if d.nanoseconds < 0 then '-' :: body else body)

end Duration

end HullRobot
