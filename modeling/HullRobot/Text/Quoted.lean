import HullRobot.Text.Printable
import HullRobot.Text.Utf8

/-!
# Quoted text

Messages quote the text they speak of.  Printable characters stand for themselves, quotes and
backslashes are escaped, and every other character is written as an escape sequence.
-/

namespace HullRobot.Text

/-- The lower case hexadecimal digits of `n`, with leading zeros up to `width`. -/
def hex (width n : Nat) : List Char :=
  let digits := Nat.toDigits 16 n
  List.replicate (width - digits.length) '0' ++ digits

/-- The letter that names a control character after a backslash. -/
def escapeLetter? (c : Char) : Option Char :=
  match c.toNat with
  | 7 => some 'a'
  | 8 => some 'b'
  | 9 => some 't'
  | 10 => some 'n'
  | 11 => some 'v'
  | 12 => some 'f'
  | 13 => some 'r'
  | _ => none

/-- A character inside quotes. -/
def escape (c : Char) : List Char :=
  if c = '"' ∨ c = '\\' then ['\\', c]
  else if isPrintable c then [c]
  else
    match escapeLetter? c with
    | some letter => ['\\', letter]
    | none =>
      if c.toNat < 0x80 then '\\' :: 'x' :: hex 2 c.toNat
      else if c.toNat < 0x10000 then '\\' :: 'u' :: hex 4 c.toNat
      else '\\' :: 'U' :: hex 8 c.toNat

/-- A text in quotes. -/
def quote (cs : List Char) : String := String.ofList ('"' :: cs.flatMap escape ++ ['"'])

/-- A byte inside plain quotes: quotes and backslashes are escaped, and bytes below the space or
above ASCII are written in hexadecimal. -/
def escapeByte (b : UInt8) : List Char :=
  if b < 0x20 || 0x80 ≤ b then '\\' :: 'x' :: hex 2 b.toNat
  else
    let c := Char.ofNat b.toNat
    if c = '"' ∨ c = '\\' then ['\\', c] else [c]

/-- A text in plain quotes, which spell out all that is not ASCII byte by byte. -/
def quoteBytes (s : String) : String :=
  String.ofList ('"' :: (bytes s).flatMap escapeByte ++ ['"'])

end HullRobot.Text
