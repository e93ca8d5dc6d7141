import HullRobot.Decimal
import HullRobot.Text.Quoted

/-!
# Program images

An image is a list of signed decimal integers with commas between them and at most one after the
last.  Blanks may stand around them.  The text is cut into tokens first, then the tokens are put
into order, and at last the numbers are read; the first of these that fails gives the error.
-/

namespace HullRobot.Image

/-- A place in a text, counted from 1. -/
structure Place where
  line : Nat := 1
  column : Nat := 1
  deriving DecidableEq

/-- The place after a character that stands at `p`. -/
def Place.after (p : Place) (c : Char) : Place :=
  if c = '\n' then ⟨p.line + 1, 1⟩ else { p with column := p.column + 1 }

/-- The text of a place in the text called `source`; a text need not have a name. -/
def Place.text (p : Place) (source : String) : String :=
  let place := Decimal.nat p.line ++ ":" ++ Decimal.nat p.column
  if source.isEmpty then place else source ++ ":" ++ place

/-- What an image is made of. -/
inductive Token where
  | number (literal : List Char)
  | comma
  deriving DecidableEq

/-- A token as it is written. -/
def Token.chars : Token → List Char
  | .number literal => literal
  | .comma => [',']

/-- A token and where it starts. -/
structure Placed where
  token : Token
  place : Place
  deriving DecidableEq

/-- Why a text is no image. -/
inductive Error where
  /-- No token starts at `place`, where `rest` is what follows. -/
  | noToken (place : Place) (rest : List Char)
  /-- The token cannot follow those before it. -/
  | unexpected (place : Place) (token : Token)
  /-- The number of cell `index` is too large for a cell. -/
  | outOfRange (place : Place) (index : Nat) (literal : List Char)
  deriving DecidableEq

/-- How many characters of a text are quoted. -/
def excerptLength : Nat := 16

/-- The start of a text, with dots if there is more. -/
def excerpt (cs : List Char) : List Char :=
  if cs.length ≤ excerptLength then cs else cs.take excerptLength ++ ['.', '.', '.']

/-- The text of an error in the image called `source`. -/
def Error.message (source : String) : Error → String
  | .noToken place rest =>
    place.text source ++ ": lexer: invalid input text " ++ Text.quote (excerpt rest)
  | .unexpected place token =>
    place.text source ++ ": unexpected token " ++ Text.quote token.chars
  | .outOfRange place index literal =>
    place.text source ++ ": cell " ++ Decimal.nat index ++ ": strconv.ParseInt: parsing " ++
      Text.quote literal ++ ": value out of range"

/-- The characters that may stand around tokens. -/
def isBlank (c : Char) : Bool :=
  c = ' ' || c = '\t' || c = '\n' || c = '\r' || c = '\x0c'

/-- The number that a text starts with: digits, with or without a sign before them. -/
def literal? (cs : List Char) : Option (List Char) :=
  match cs with
  | [] => none
  | c :: rest =>
    if c = '-' ∨ c = '+' then
      let digits := rest.takeWhile Char.isDigit
      if digits.isEmpty then none else some (c :: digits)
    else
      let digits := cs.takeWhile Char.isDigit
      if digits.isEmpty then none else some digits

/-- Cuts a text into tokens.  `used` counts the characters at its start that belong to a token
found before. -/
def scan : (used : Nat) → Place → List Char → Except Error (List Placed)
  | _, _, [] => .ok []
  | used + 1, p, c :: rest => scan used (p.after c) rest
  | 0, p, c :: rest =>
    if isBlank c then scan 0 (p.after c) rest
    else if c = ',' then (scan 0 (p.after c) rest).map (⟨.comma, p⟩ :: ·)
    else
      match literal? (c :: rest) with
      | some literal =>
        (scan (literal.length - 1) (p.after c) rest).map (⟨.number literal, p⟩ :: ·)
      | none => .error (.noToken p (c :: rest))

/-- The tokens of a text. -/
def tokens (cs : List Char) : Except Error (List Placed) := scan 0 {} cs

/-- A number as it is written, and where. -/
structure Numeral where
  literal : List Char
  place : Place
  deriving DecidableEq

mutual

/-- Reads tokens where a number may stand. -/
def numerals : List Placed → Except Error (List Numeral)
  | [] => .ok []
  | ⟨.number literal, place⟩ :: rest => (numeralsAfter rest).map (⟨literal, place⟩ :: ·)
  | ⟨.comma, place⟩ :: _ => .error (.unexpected place .comma)

/-- Reads tokens where a comma may stand. -/
def numeralsAfter : List Placed → Except Error (List Numeral)
  | [] => .ok []
  | ⟨.comma, _⟩ :: rest => numerals rest
  | ⟨.number literal, place⟩ :: _ => .error (.unexpected place (.number literal))

end

/-- The integer that a literal stands for. -/
def literalValue : List Char → Int
  | '-' :: digits => -(Decimal.extend 0 digits : Int)
  | '+' :: digits => Decimal.extend 0 digits
  | digits => Decimal.extend 0 digits

/-- The cell that holds an integer, if one can. -/
def cell? (i : Int) : Option Int64 :=
  if Int64.minValue.toInt ≤ i ∧ i ≤ Int64.maxValue.toInt then some (Int64.ofInt i) else none

/-- Reads the numbers, of which the first belongs to cell `index`. -/
def values : (index : Nat) → List Numeral → Except Error (List Int64)
  | _, [] => .ok []
  | index, n :: rest =>
    match cell? (literalValue n.literal) with
    | some v => (values (index + 1) rest).map (v :: ·)
    | none => .error (.outOfRange n.place index n.literal)

/-- The cells of an image. -/
def parse (cs : List Char) : Except Error (List Int64) := do
  let placed ← tokens cs
  let found ← numerals placed
  values 0 found

/-- The cells of an image that is given as bytes. -/
def parseBytes (bytes : List UInt8) : Except Error (List Int64) := parse (Text.lossy bytes)

end HullRobot.Image
