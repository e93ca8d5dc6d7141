/-!
# CBOR items

An item of the binary format CBOR, and its canonical bytes: every length and number has the
shortest head that holds it.
-/

namespace HullRobot.Cbor

/-- A CBOR item.  A string comes in one or more chunks. -/
inductive Item where
  | unsigned (n : Nat)
  /-- The number `-1 - n`. -/
  | negative (n : Nat)
  | bytes (chunks : List (List UInt8))
  | text (chunks : List (List UInt8))
  | array (items : List Item)
  | map (entries : List (Item × Item))
  | tag (number : Nat) (content : Item)
  | simple (n : Nat)
  /-- A binary fraction of two, four or eight bytes. -/
  | float (payload : List UInt8)
  deriving Inhabited

namespace Item

/-- The simple value that stands for no value. -/
def null : Item := .simple 22

/-- The item for an integer. -/
def ofInt : Int → Item
  | .ofNat n => .unsigned n
  | .negSucc n => .negative n

end Item

/-- The last `width` bytes of a number, the highest first. -/
def bigEndian : (width : Nat) → Nat → List UInt8
  | 0, _ => []
  | width + 1, n => (n / Nat.pow 256 width).toUInt8 :: bigEndian width n

/-- The number that bytes stand for, the highest first. -/
def ofBigEndian (bytes : List UInt8) : Nat := bytes.foldl (fun n b => 256 * n + b.toNat) 0

/-- The first byte of an item: the kind of the item, and what stands in its low five bits. -/
def initial (major info : Nat) : UInt8 := (32 * major + info).toUInt8

/-- The shortest head of an item of kind `major` with the number `n`. -/
def head (major n : Nat) : List UInt8 :=
  if n < 24 then [initial major n]
  else if n < 0x100 then initial major 24 :: bigEndian 1 n
  else if n < 0x10000 then initial major 25 :: bigEndian 2 n
  else if n < 0x100000000 then initial major 26 :: bigEndian 4 n
  else initial major 27 :: bigEndian 8 n

/-- The byte that ends an item of open length. -/
def breakByte : UInt8 := 0xff

/-- The bytes of a string.  One with more or fewer chunks than one has an open length. -/
def encodeString (major : Nat) : List (List UInt8) → List UInt8
  | [chunk] => head major chunk.length ++ chunk
  | chunks =>
    initial major 31 ::
      chunks.flatMap (fun chunk => head major chunk.length ++ chunk) ++ [breakByte]

/-- The bytes of a float. -/
def encodeFloat (payload : List UInt8) : List UInt8 :=
  let info := if payload.length = 2 then 25 else if payload.length = 4 then 26 else 27
  initial 7 info :: payload

mutual

/-- The bytes of an item. -/
def encode : Item → List UInt8
  | .unsigned n => head 0 n
  | .negative n => head 1 n
  | .bytes chunks => encodeString 2 chunks
  | .text chunks => encodeString 3 chunks
  | .array items => head 4 items.length ++ encodeAll items
  | .map entries => head 5 entries.length ++ encodeEntries entries
  | .tag number content => head 6 number ++ encode content
  | .simple n => head 7 n
  | .float payload => encodeFloat payload

/-- The bytes of items in a row. -/
def encodeAll : List Item → List UInt8
  | [] => []
  | item :: rest => encode item ++ encodeAll rest

/-- The bytes of the keys and values of a map. -/
def encodeEntries : List (Item × Item) → List UInt8
  | [] => []
  | (key, value) :: rest => encode key ++ encode value ++ encodeEntries rest

end

end HullRobot.Cbor
