/-!
# Text from bytes

`decode` reads UTF-8.  A byte that does not start a well formed sequence stands alone and is read
as nothing; the reading goes on with the byte after it.  `lossy` puts U+FFFD for such bytes, and
`strict?` refuses them.
-/

namespace HullRobot.Text

/-- The character that stands for a byte that is not text. -/
def replacement : Char := '�'

/-- The byte continues a sequence. -/
def isTail (b : UInt8) : Bool := 0x80 ≤ b && b ≤ 0xBF

/-- Two bytes that form a character. -/
def isPair (a b : UInt8) : Bool := 0xC2 ≤ a && a ≤ 0xDF && isTail b

/-- Three bytes that form a character: neither a longer form of a shorter one, nor a surrogate. -/
def isTriple (a b c : UInt8) : Bool :=
  0xE0 ≤ a && a ≤ 0xEF && isTail b && isTail c &&
    !(a == 0xE0 && b < 0xA0) && !(a == 0xED && 0x9F < b)

/-- Four bytes that form a character: neither a longer form of a shorter one, nor too large. -/
def isQuad (a b c d : UInt8) : Bool :=
  0xF0 ≤ a && a ≤ 0xF4 && isTail b && isTail c && isTail d &&
    !(a == 0xF0 && b < 0x90) && !(a == 0xF4 && 0x8F < b)

/-- The character of a two byte sequence. -/
def pairChar (a b : UInt8) : Char := Char.ofNat ((a.toNat - 0xC0) * 64 + (b.toNat - 0x80))

/-- The character of a three byte sequence. -/
def tripleChar (a b c : UInt8) : Char :=
  Char.ofNat (((a.toNat - 0xE0) * 64 + (b.toNat - 0x80)) * 64 + (c.toNat - 0x80))

/-- The character of a four byte sequence. -/
def quadChar (a b c d : UInt8) : Char :=
  Char.ofNat ((((a.toNat - 0xF0) * 64 + (b.toNat - 0x80)) * 64 + (c.toNat - 0x80)) * 64 +
    (d.toNat - 0x80))

/-- The character that starts with byte `a`, and how many of the bytes `rest` after it belong to
it. -/
def sequence? (a : UInt8) (rest : List UInt8) : Option (Char × Nat) :=
  if a < 0x80 then some (Char.ofNat a.toNat, 0)
  else
    match rest with
    | [] => none
    | b :: rest =>
      if isPair a b then some (pairChar a b, 1)
      else
        match rest with
        | [] => none
        | c :: rest =>
          if isTriple a b c then some (tripleChar a b c, 2)
          else
            match rest with
            | [] => none
            | d :: _ => if isQuad a b c d then some (quadChar a b c d, 3) else none

/-- The characters of a byte string after its first `used` bytes. -/
def decodeAfter : (used : Nat) → List UInt8 → List (Option Char)
  | _, [] => []
  | used + 1, _ :: rest => decodeAfter used rest
  | 0, a :: rest =>
    match sequence? a rest with
    | some (c, n) => some c :: decodeAfter n rest
    | none => none :: decodeAfter 0 rest

/-- The characters of a byte string, with `none` for each byte that is not text. -/
def decode (bytes : List UInt8) : List (Option Char) := decodeAfter 0 bytes

/-- The characters of a byte string, with U+FFFD for each byte that is not text. -/
def lossy (bytes : List UInt8) : List Char := (decode bytes).map fun c => c.getD replacement

/-- The characters of a byte string that is text throughout. -/
def strict? (bytes : List UInt8) : Option (List Char) := (decode bytes).mapM id

/-- The bytes of a text. -/
def bytes (s : String) : List UInt8 := s.toUTF8.data.toList

/-- The text that a byte string shows. -/
def ofBytes (bytes : List UInt8) : String := String.ofList (lossy bytes)

end HullRobot.Text
