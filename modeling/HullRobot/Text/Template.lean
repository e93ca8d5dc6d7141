import HullRobot.Decimal

/-!
# Message templates

A template shows its arguments where a percent sign and a verb stand: `%v` for any argument, `%s`
for a text, `%d` for a number.  `%%` is a percent sign.  An argument that does not fit its verb,
and one too few or too many, is shown in brackets.
-/

namespace HullRobot.Text

/-- An argument of a template. -/
inductive Argument where
  | text (s : String)
  | number (i : Int64)
  deriving DecidableEq

namespace Argument

/-- An argument as it is. -/
def chars : Argument → List Char
  | .text s => s.toList
  | .number i => Decimal.ofInt i.toInt

/-- An argument with its type. -/
def described : Argument → List Char
  | .text s => "string=".toList ++ s.toList
  | .number i => "int64=".toList ++ Decimal.ofInt i.toInt

/-- The verb shows arguments of this type. -/
def fits (verb : Char) : Argument → Bool
  | .text _ => verb = 'v' || verb = 's'
  | .number _ => verb = 'v' || verb = 'd'

/-- An argument as a verb shows it. -/
def shown (verb : Char) (a : Argument) : List Char :=
  if a.fits verb then a.chars
  else '%' :: '!' :: verb :: '(' :: a.described ++ [')']

end Argument

/-- What is shown for arguments that no verb asked for. -/
def surplus : List Argument → List Char
  | [] => []
  | args => "%!(EXTRA ".toList ++ List.intercalate [',', ' '] (args.map Argument.described) ++ [')']

/-- Fills in the arguments of a template. -/
def fillIn : List Char → List Argument → List Char
  | [], args => surplus args
  | '%' :: [], args => "%!(NOVERB)".toList ++ surplus args
  | '%' :: '%' :: rest, args => '%' :: fillIn rest args
  | '%' :: verb :: rest, [] => '%' :: '!' :: verb :: "(MISSING)".toList ++ fillIn rest []
  | '%' :: verb :: rest, a :: args => a.shown verb ++ fillIn rest args
  | c :: rest, args => c :: fillIn rest args

/-- A message from a template.  Without arguments the template is the message. -/
def message (template : String) (args : List Argument) : String :=
  if args.isEmpty then template else String.ofList (fillIn template.toList args)

end HullRobot.Text
