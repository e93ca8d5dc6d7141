/-!
# Integer literals

An integer literal has an optional sign and is decimal, or has the base that its start tells: `0x`
for hexadecimal, `0o` or a plain `0` for octal, `0b` for binary.  Underscores may stand between
digits and after the start.
-/

namespace HullRobot.Literal

/-- Why a text is no integer literal. -/
inductive Error where
  | malformed
  | outOfRange
  deriving DecidableEq

/-- The value of a digit of any base; letters stand for ten and more. -/
def digit? (c : Char) : Option Nat :=
  if c.isDigit then some (c.toNat - '0'.toNat)
  else if c.isLower then some (c.toNat - 'a'.toNat + 10)
  else if c.isUpper then some (c.toNat - 'A'.toNat + 10)
  else none

/-- Appends digits to `n`, which must stay below `2 ^ 64`.  Underscores are passed over. -/
def accumulate (base : Nat) : (n : Nat) → List Char → Except Error Nat
  | n, [] => .ok n
  | n, c :: cs =>
    if c = '_' then accumulate base n cs
    else
      match digit? c with
      | none => .error .malformed
      | some d =>
        if base ≤ d then .error .malformed
        else if UInt64.size ≤ n * base + d then .error .outOfRange
        else accumulate base (n * base + d) cs

/-- The base that a letter after a zero tells. -/
def baseOf? (c : Char) : Option Nat :=
  match c.toLower with
  | 'b' => some 2
  | 'o' => some 8
  | 'x' => some 16
  | _ => none

/-- The base of a literal without its sign, and its digits. -/
def split (cs : List Char) : Nat × List Char :=
  match cs with
  | '0' :: c :: d :: rest =>
    match baseOf? c with
    | some base => (base, d :: rest)
    | none => (8, c :: d :: rest)
  | '0' :: rest => (8, rest)
  | _ => (10, cs)

/-- Every underscore stands after a digit and before one.  `digit` tells whether a digit stands
before the rest `cs`. -/
def underscoresBetween (isDigit : Char → Bool) : (digit : Bool) → List Char → Bool
  | _, [] => true
  | digit, '_' :: rest =>
    digit && (rest.head?.any isDigit) && underscoresBetween isDigit false rest
  | _, c :: rest => underscoresBetween isDigit (isDigit c) rest

/-- The underscores of a literal without its sign are where they may be.  The start that tells the
base counts as a digit. -/
def underscoresOk (cs : List Char) : Bool :=
  match cs with
  | '0' :: c :: rest =>
    match baseOf? c with
    | some 16 => underscoresBetween (fun c => (digit? c).any (· < 16)) true rest
    | some _ => underscoresBetween Char.isDigit true rest
    | none => underscoresBetween Char.isDigit false cs
  | _ => underscoresBetween Char.isDigit false cs

/-- The size of the number that a literal without its sign stands for. -/
def magnitude (cs : List Char) : Except Error Nat :=
  if cs.isEmpty then .error .malformed
  else
    let (base, digits) := split cs
    match accumulate base 0 digits with
    | .error e => .error e
    | .ok n => if cs.contains '_' && !underscoresOk cs then .error .malformed else .ok n

/-- The number that a literal stands for. -/
def parse (cs : List Char) : Except Error Int64 :=
  match cs with
  | '-' :: rest =>
    match magnitude rest with
    | .error e => .error e
    | .ok n => if 0x8000000000000000 < n then .error .outOfRange else .ok (Int64.ofInt (-(n : Int)))
  | '+' :: rest => unsigned rest
  | _ => unsigned cs
where
  /-- The number that a literal without a minus sign stands for. -/
  unsigned (cs : List Char) : Except Error Int64 :=
    match magnitude cs with
    | .error e => .error e
    | .ok n => if 0x8000000000000000 ≤ n then .error .outOfRange else .ok (Int64.ofNat n)

end HullRobot.Literal
