import HullRobot.Toml.Scalar

/-!
# Reading TOML

`parse` splits a text into its statements.
-/

namespace HullRobot.Toml

/-- Drops blanks, line ends and comments.  `comment` tells whether a comment has begun. -/
def skipSpace : (comment : Bool) → List Char → List Char
  | _, [] => []
  | true, c :: rest => if isLineEnd c then skipSpace false rest else skipSpace true rest
  | false, c :: rest =>
    if isBlank c || isLineEnd c then skipSpace false rest
    else if c = '#' then skipSpace true rest
    else c :: rest

/-- Drops blanks. -/
def skipBlanks (cs : List Char) : List Char := cs.dropWhile isBlank

/-- Reads a part of a key. -/
def keyPart : Reader String
  | '"' :: rest => basicString rest
  | '\'' :: rest => literalString rest
  | cs =>
    let bare := cs.takeWhile isBare
    if bare.isEmpty then none else some (String.ofList bare, cs.drop bare.length)

/-- Reads a key of at most `rounds` parts, and the blanks around it. -/
def key : (rounds : Nat) → Reader Key
  | 0, _ => none
  | rounds + 1, cs => do
    let (part, rest) ← keyPart (skipBlanks cs)
    match skipBlanks rest with
    | '.' :: rest =>
      let (parts, rest) ← key rounds rest
      some (part :: parts, rest)
    | rest => some ([part], rest)

/-- Reads a key and the equals sign after it. -/
def assigned : Reader Key := fun cs => do
  match ← key cs.length cs with
  | (k, '=' :: rest) => some (k, rest)
  | _ => none

mutual

/-- Reads a value. -/
def value : (rounds : Nat) → Reader Value
  | 0, _ => none
  | rounds + 1, cs =>
    match skipBlanks cs with
    | '[' :: rest => do
      let (items, rest) ← elements rounds rest
      some (.array items, rest)
    | '\x7b' :: rest => do
      let (pairs, rest) ← pairs rounds rest
      some (.inline pairs, rest)
    | cs => scalar cs

/-- Reads the elements of an array and the bracket that ends it. -/
def elements : (rounds : Nat) → Reader (List Value)
  | 0, _ => none
  | rounds + 1, cs =>
    match skipSpace false cs with
    | ']' :: rest => some ([], rest)
    | cs => do
      let (v, rest) ← value rounds cs
      match skipSpace false rest with
      | ',' :: rest =>
        let (vs, rest) ← elements rounds rest
        some (v :: vs, rest)
      | ']' :: rest => some ([v], rest)
      | _ => none

/-- Reads the pairs of an inline table and the brace that ends it. -/
def pairs : (rounds : Nat) → Reader (List (Key × Value))
  | 0, _ => none
  | rounds + 1, cs =>
    match skipSpace false cs with
    | '\x7d' :: rest => some ([], rest)
    | cs => do
      let (k, rest) ← assigned cs
      let (v, rest) ← value rounds rest
      match skipSpace false rest with
      | ',' :: rest =>
        let (kvs, rest) ← pairs rounds rest
        some ((k, v) :: kvs, rest)
      | '\x7d' :: rest => some ([(k, v)], rest)
      | _ => none

end

/-- Reads a statement. -/
def statement : Reader Statement
  | '[' :: '[' :: cs => do
    match ← key cs.length cs with
    | (k, ']' :: ']' :: rest) => some (.element k, rest)
    | _ => none
  | '[' :: cs => do
    match ← key cs.length cs with
    | (k, ']' :: rest) => some (.table k, rest)
    | _ => none
  | cs => do
    let (k, rest) ← assigned cs
    let (v, rest) ← value (2 * rest.length + 2) rest
    some (.pair k v, rest)

/-- Nothing but blanks and a comment follows on the line. -/
def atLineEnd (cs : List Char) : Bool :=
  match skipBlanks cs with
  | [] => true
  | c :: _ => c = '#' || isLineEnd c

/-- Reads at most `rounds` statements, each on lines of its own. -/
def statements : (rounds : Nat) → List Char → Option (List Statement)
  | rounds, cs =>
    match rounds, skipSpace false cs with
    | _, [] => some []
    | 0, _ => none
    | rounds + 1, cs => do
      let (s, rest) ← statement cs
      if !atLineEnd rest then none
      let later ← statements rounds rest
      some (s :: later)

/-- No control characters but tabs and line ends, and no carriage return without a line feed. -/
def isPlain : List Char → Bool
  | [] => true
  | '\r' :: rest => rest.head? = some '\n' && isPlain rest
  | c :: rest => (c = '\t' || c = '\n' || (32 ≤ c.toNat && c.toNat ≠ 127)) && isPlain rest

/-- The statements of a text. -/
def parse (cs : List Char) : Option (List Statement) :=
  if isPlain cs then statements cs.length cs else none

/-- The bytes of a file without a byte order mark. -/
def withoutMark : List UInt8 → List UInt8
  | 0xff :: 0xfe :: rest => rest
  | 0xfe :: 0xff :: rest => rest
  | 0xef :: 0xbb :: 0xbf :: rest => rest
  | bytes => bytes

/-- The statements of a file. -/
def parseBytes (bytes : List UInt8) : Option (List Statement) := do
  parse (← Text.strict? (withoutMark bytes))

end HullRobot.Toml
