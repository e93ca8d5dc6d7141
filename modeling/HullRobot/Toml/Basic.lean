import HullRobot.Text.Quoted

/-!
# TOML

The values and statements of a TOML text, and how a key is written.
-/

namespace HullRobot.Toml

/-- The parts of a dotted key. -/
abbrev Key := List String

/-- A value as it stands in a text. -/
inductive Value where
  | text (s : String)
  | integer (i : Int64)
  | float
  | boolean (b : Bool)
  /-- A date, a time or both. -/
  | moment
  | array (items : List Value)
  | inline (pairs : List (Key × Value))
  deriving Inhabited

/-- A statement of a text. -/
inductive Statement where
  /-- A table header, as in `[a.b]`. -/
  | table (key : Key)
  /-- A header of the next element of an array of tables, as in `[[a.b]]`. -/
  | element (key : Key)
  | pair (key : Key) (value : Value)
  deriving Inhabited

/-- The character may stand in a key without quotes. -/
def isBare (c : Char) : Bool := c.isAlphanum || c = '_' || c = '-'

/-- A character within the quotes of a key part. -/
def quotedChar (c : Char) : List Char :=
  match c with
  | '"' => ['\\', '"']
  | '\\' => ['\\', '\\']
  | '\x08' => ['\\', 'b']
  | '\t' => ['\\', 't']
  | '\n' => ['\\', 'n']
  | '\x0c' => ['\\', 'f']
  | '\r' => ['\\', 'r']
  | c => if c.toNat < 32 ∨ c.toNat = 127 then '\\' :: 'u' :: Text.hex 4 c.toNat else [c]

/-- A part of a key, in quotes if it needs them. -/
def partText (part : String) : List Char :=
  let cs := part.toList
  if cs.isEmpty || !cs.all isBare then '"' :: cs.flatMap quotedChar ++ ['"'] else cs

/-- The text of a key. -/
def Key.text (key : Key) : String := String.ofList (List.intercalate ['.'] (key.map partText))

end HullRobot.Toml
