import HullRobot.Literal
import HullRobot.Toml.Basic

/-!
# Strings, numbers and moments in TOML
-/

namespace HullRobot.Toml

/-- A reader takes characters from the front and leaves the rest. -/
abbrev Reader (α : Type) := List Char → Option (α × List Char)

/-- A blank within a line. -/
def isBlank (c : Char) : Bool := c = ' ' || c = '\t'

/-- A character of a line end. -/
def isLineEnd (c : Char) : Bool := c = '\n' || c = '\r'

/-- A hexadecimal digit. -/
def isHexDigit (c : Char) : Bool := (Literal.digit? c).any (· < 16)

/-! ## Strings -/

/-- Reads a character from its code in `n` hexadecimal digits. -/
def codedChar (n : Nat) : Reader Char := fun cs =>
  let digits := cs.take n
  let code := digits.foldl (fun v c => 16 * v + (Literal.digit? c).getD 0) 0
  if digits.length = n ∧ digits.all isHexDigit ∧ code.isValidChar then
    some (Char.ofNat code, cs.drop n)
  else none

/-- Reads the rest of an escape after its backslash. -/
def escaped : Reader Char
  | 'b' :: rest => some ('\x08', rest)
  | 't' :: rest => some ('\t', rest)
  | 'n' :: rest => some ('\n', rest)
  | 'f' :: rest => some ('\x0c', rest)
  | 'r' :: rest => some ('\r', rest)
  | 'e' :: rest => some ('\x1b', rest)
  | '"' :: rest => some ('"', rest)
  | '\\' :: rest => some ('\\', rest)
  | 'x' :: rest => codedChar 2 rest
  | 'u' :: rest => codedChar 4 rest
  | 'U' :: rest => codedChar 8 rest
  | _ => none

/-- Resolves the escapes of a string.  A backslash at the end of a line takes all blanks and line
ends after it away. -/
def unescape : (rounds : Nat) → List Char → Option (List Char)
  | _, [] => some []
  | 0, _ :: _ => none
  | rounds + 1, '\\' :: rest =>
    let isGap (c : Char) := isBlank c || isLineEnd c
    if (rest.takeWhile isGap).contains '\n' then unescape rounds (rest.dropWhile isGap)
    else do
      let (c, rest) ← escaped rest
      let cs ← unescape rounds rest
      some (c :: cs)
  | rounds + 1, c :: rest => do
    let cs ← unescape rounds rest
    some (c :: cs)

/-- Reads the characters of a string on one line up to its quote, with its escapes. -/
def basicBody : Reader (List Char)
  | [] => none
  | '"' :: rest => some ([], rest)
  | '\\' :: c :: rest => do
    if isLineEnd c then none
    let (body, rest) ← basicBody rest
    some ('\\' :: c :: body, rest)
  | c :: rest => do
    if isLineEnd c then none
    let (body, rest) ← basicBody rest
    some (c :: body, rest)

/-- Reads a string on one line after its first quote. -/
def basicString : Reader String := fun cs => do
  let (body, rest) ← basicBody cs
  let chars ← unescape body.length body
  some (String.ofList chars, rest)

/-- Reads a string on one line without escapes after its first quote. -/
def literalString : Reader String := fun cs =>
  let body := cs.takeWhile fun c => c ≠ '\'' && !isLineEnd c
  match cs.drop body.length with
  | '\'' :: rest => some (String.ofList body, rest)
  | _ => none

/-- Reads the characters of a string over lines.  `run` quotes were read just before.  Three quotes
end the string, with up to two more before them, or three after an escaped backslash. -/
def longBody (quote : Char) (escapes : Bool) :
    (afterBackslash : Bool) → (run : Nat) → Reader (List Char)
  | _, run, [] => if 3 ≤ run then some (List.replicate (run - 3) quote, []) else none
  | afterBackslash, run, c :: rest =>
    if c = quote then
      if run = (if afterBackslash then 6 else 5) then none
      else longBody quote escapes afterBackslash (run + 1) rest
    else if 3 ≤ run then some (List.replicate (run - 3) quote, c :: rest)
    else if escapes ∧ c = '\\' then
      match rest with
      | [] => none
      | d :: rest => do
        let (body, rest) ← longBody quote escapes (d = '\\') 0 rest
        some (List.replicate run quote ++ c :: d :: body, rest)
    else do
      let (body, rest) ← longBody quote escapes false 0 rest
      some (List.replicate run quote ++ c :: body, rest)

/-- A string over lines without the line end right after its first quotes. -/
def dropFirstLineEnd : List Char → List Char
  | '\n' :: rest => rest
  | '\r' :: '\n' :: rest => rest
  | cs => cs

/-- Reads a string over lines after its first three quotes. -/
def longBasicString : Reader String := fun cs => do
  let (body, rest) ← longBody '"' true false 0 cs
  let chars ← unescape body.length (dropFirstLineEnd body)
  some (String.ofList chars, rest)

/-- Reads a string over lines without escapes after its first three quotes. -/
def longLiteralString : Reader String := fun cs => do
  let (body, rest) ← longBody '\'' false false 0 cs
  some (String.ofList (dropFirstLineEnd body), rest)

/-! ## Numbers -/

/-- Every underscore follows a digit, and the last character is one. -/
def underscoresFit (cs : List Char) : Bool :=
  let step (acc : Bool × Bool) (c : Char) : Bool × Bool :=
    (acc.1 && (c ≠ '_' || acc.2), isHexDigit c)
  let (fit, digit) := cs.foldl step (true, false)
  fit && digit

/-- A number, with or without a sign, starts with a zero that it should not have. -/
def hasLeadingZero : List Char → Bool
  | '0' :: c :: _ => !(c = 'b' || c = 'o' || c = 'x')
  | c :: '0' :: _ :: _ => c = '+' || c = '-'
  | _ => false

/-- The value of an integer. -/
def integer? (cs : List Char) : Option Int64 :=
  if underscoresFit cs && !hasLeadingZero cs then (Literal.parse cs).toOption else none

/-- A character of a float. -/
def isFloatChar (c : Char) : Bool :=
  c.isDigit || c = '_' || c = '.' || c = '-' || c = '+' || c = 'e' || c = 'E'

/-- Every period is followed by a digit. -/
def periodsFit : List Char → Bool
  | [] => true
  | '.' :: rest => rest.head?.any Char.isDigit && periodsFit rest
  | _ :: rest => periodsFit rest

/-- The parts of a float between its period and its exponent marks; empty ones are left out. -/
def floatParts (cs : List Char) : List (List Char) :=
  (cs.splitBy fun a b => isMark a == isMark b).filter fun part => !part.any isMark
where
  /-- A period or an exponent mark. -/
  isMark (c : Char) : Bool := c = '.' || c = 'e' || c = 'E'

/-- The value of digits. -/
def digitsValue (cs : List Char) : Nat := cs.foldl (fun n c => 10 * n + (Literal.digit? c).getD 0) 0

/-- A sign is dropped. -/
def unsigned : List Char → List Char
  | '+' :: rest => rest
  | '-' :: rest => rest
  | cs => cs

/-- The size of an exponent.  Digits that follow when it has reached 10000 are passed over. -/
def exponentSize (cs : List Char) : Nat :=
  cs.foldl (fun n c => if n < 10000 then 10 * n + (Literal.digit? c).getD 0 else n) 0

/-- The number `n * 10 ^ exponent` is below the numbers that round to infinity in binary with 53
bits and exponents up to 1023. -/
def isFinite (n : Nat) (exponent : Int) : Bool :=
  let limit := (0x40000000000000 - 1) * Nat.pow 2 970
  let size : Int := (Nat.toDigits 10 n).length + exponent
  if n = 0 ∨ size < 300 then true
  else if 400 < size then false
  else n * Nat.pow 10 exponent.toNat < limit * Nat.pow 10 (-exponent).toNat

/-- The number with these digits before and after its period is finite.  If there are more than 800
digits before the period, the first 19 decide. -/
def isFiniteDecimal (whole part : List Char) (exponent : Int) : Bool :=
  if 800 < whole.length then
    isFinite (digitsValue (whole.take 19)) (exponent + (whole.length - 19 : Nat))
  else isFinite (digitsValue (whole ++ part)) (exponent - part.length)

/-- The characters are a decimal number with a period or an exponent, and a finite one. -/
def isDecimal (cs : List Char) : Bool :=
  let cs := unsigned cs
  let whole := cs.takeWhile Char.isDigit
  let rest := cs.dropWhile Char.isDigit
  let pointed := rest.head? = some '.'
  let part := if pointed then (rest.drop 1).takeWhile Char.isDigit else []
  let rest := if pointed then (rest.drop 1).dropWhile Char.isDigit else rest
  if whole.isEmpty && part.isEmpty then false
  else
    match rest with
    | [] => isFiniteDecimal whole part 0
    | mark :: rest =>
      let digits := unsigned rest
      let size := exponentSize digits
      (mark = 'e' || mark = 'E') && !digits.isEmpty && digits.all Char.isDigit &&
        isFiniteDecimal whole part (if rest.head? = some '-' then -size else size)

/-- The characters are a float. -/
def isFloat (cs : List Char) : Bool :=
  let parts := floatParts cs
  parts.all underscoresFit && !(parts.head?.any hasLeadingZero) && periodsFit cs &&
    isDecimal (cs.filter (· ≠ '_'))

/-! ## Moments -/

/-- A character of a moment. -/
def isMomentChar (c : Char) : Bool :=
  c.isDigit || c = '-' || c = ':' || c = 'T' || c = 't' || c = ' ' || c = '.' || c = 'Z' ||
    c = 'z' || c = '+'

/-- Takes a number of `n` digits. -/
def fixedNumber (n : Nat) : Reader Nat := fun cs =>
  let digits := cs.take n
  if digits.length = n ∧ digits.all Char.isDigit then some (digitsValue digits, cs.drop n) else none

/-- Takes a character. -/
def single (c : Char) : Reader Unit
  | d :: rest => if c = d then some ((), rest) else none
  | [] => none

/-- The year has a 29th of February. -/
def isLeap (year : Nat) : Bool := year % 4 = 0 && (year % 100 ≠ 0 || year % 400 = 0)

/-- The days of a month. -/
def daysIn (year month : Nat) : Nat :=
  if month = 2 then (if isLeap year then 29 else 28)
  else if month = 4 ∨ month = 6 ∨ month = 9 ∨ month = 11 then 30
  else 31

/-- Takes a date. -/
def date : Reader Unit := fun cs => do
  let (year, cs) ← fixedNumber 4 cs
  let (_, cs) ← single '-' cs
  let (month, cs) ← fixedNumber 2 cs
  let (_, cs) ← single '-' cs
  let (day, cs) ← fixedNumber 2 cs
  if 1 ≤ month ∧ month ≤ 12 ∧ 1 ≤ day ∧ day ≤ daysIn year month then some ((), cs) else none

/-- Takes a time of the day, with or without seconds and their fraction. -/
def timeOfDay : Reader Unit := fun cs => do
  let (hour, cs) ← fixedNumber 2 cs
  let (_, cs) ← single ':' cs
  let (minute, cs) ← fixedNumber 2 cs
  if 24 ≤ hour ∨ 60 ≤ minute then none
  match cs with
  | ':' :: cs =>
    let (second, cs) ← fixedNumber 2 cs
    if 60 ≤ second then none
    match cs with
    | '.' :: rest =>
      if rest.head?.any Char.isDigit then some ((), rest.dropWhile Char.isDigit) else some ((), cs)
    | _ => some ((), cs)
  | _ => some ((), cs)

/-- The characters are an offset from universal time, or nothing. -/
def isOffset (cs : List Char) : Bool :=
  match cs with
  | [] => true
  | ['Z'] => true
  | sign :: rest =>
    (sign = '+' || sign = '-') &&
      ((do
        let (hours, rest) ← fixedNumber 2 rest
        let (_, rest) ← single ':' rest
        let (minutes, rest) ← fixedNumber 2 rest
        some (hours ≤ 24 && minutes ≤ 60 && rest.isEmpty)).getD false)

/-- The characters are a date, a time or both. -/
def isMoment (cs : List Char) : Bool :=
  let cs := cs.map fun c => if c = ' ' ∨ c = 't' then 'T' else if c = 'z' then 'Z' else c
  match date cs with
  | some ((), []) => true
  | some ((), 'T' :: rest) =>
    match timeOfDay rest with
    | some ((), rest) => isOffset rest
    | none => false
  | some _ => false
  | none =>
    match timeOfDay cs with
    | some ((), rest) => rest.isEmpty
    | none => false

/-- The characters without blanks at their end. -/
def trimEnd (cs : List Char) : List Char := (cs.reverse.dropWhile isBlank).reverse

/-! ## Values that start with a digit, a sign or a letter -/

/-- Reads an integer in another base after its zero. -/
def basedInteger (isDigit : Char → Bool) (mark : Char) : Reader Value := fun cs => do
  if !(cs.head?.any isDigit) then none
  let digits := cs.takeWhile fun c => isDigit c || c = '_'
  let i ← integer? ('0' :: mark :: digits)
  some (.integer i, cs.drop digits.length)

/-- Reads a decimal integer or a float, without its sign. -/
def decimal (sign : List Char) : Reader Value := fun cs => do
  let digits := cs.takeWhile fun c => c.isDigit || c = '_'
  let rest := cs.drop digits.length
  match rest.head? with
  | some '.' | some 'e' | some 'E' =>
    let body := cs.takeWhile isFloatChar
    if isFloat (sign ++ body) then some (.float, cs.drop body.length) else none
  | _ =>
    let i ← integer? (sign ++ digits)
    some (.integer i, rest)

/-- Reads a value that starts with a digit. -/
def numberOrMoment : Reader Value := fun cs =>
  match cs with
  | '0' :: 'x' :: rest => basedInteger isHexDigit 'x' rest
  | '0' :: 'o' :: rest => basedInteger (fun c => (Literal.digit? c).any (· < 8)) 'o' rest
  | '0' :: 'b' :: rest => basedInteger (fun c => (Literal.digit? c).any (· < 2)) 'b' rest
  | _ =>
    let digits := cs.takeWhile Char.isDigit
    let next := (cs.drop digits.length).head?
    if (next = some '-' ∨ next = some ':') ∧ digits ≠ ['0'] then
      let body := cs.takeWhile isMomentChar
      if isMoment (trimEnd body) then some (.moment, cs.drop body.length) else none
    else decimal [] cs

/-- Reads a number after its sign. -/
def signed (sign : Char) : Reader Value := fun cs =>
  match cs with
  | 'i' :: 'n' :: 'f' :: rest => some (.float, rest)
  | 'n' :: 'a' :: 'n' :: rest => some (.float, rest)
  | '0' :: 'x' :: _ => none
  | '0' :: 'o' :: _ => none
  | '0' :: 'b' :: _ => none
  | c :: _ => if c.isDigit then decimal [sign] cs else none
  | [] => none

/-- Reads a value that is no array and no inline table. -/
def scalar : Reader Value
  | '"' :: '"' :: '"' :: rest => (longBasicString rest).map fun (s, rest) => (.text s, rest)
  | '"' :: rest => (basicString rest).map fun (s, rest) => (.text s, rest)
  | '\'' :: '\'' :: '\'' :: rest => (longLiteralString rest).map fun (s, rest) => (.text s, rest)
  | '\'' :: rest => (literalString rest).map fun (s, rest) => (.text s, rest)
  | 't' :: 'r' :: 'u' :: 'e' :: rest => some (.boolean true, rest)
  | 'f' :: 'a' :: 'l' :: 's' :: 'e' :: rest => some (.boolean false, rest)
  | 'i' :: 'n' :: 'f' :: rest => some (.float, rest)
  | 'n' :: 'a' :: 'n' :: rest => some (.float, rest)
  | '-' :: rest => signed '-' rest
  | '+' :: rest => signed '+' rest
  | c :: rest => if c.isDigit then numberOrMoment (c :: rest) else none
  | [] => none

end HullRobot.Toml
