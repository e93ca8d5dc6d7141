import HullRobot.Cbor.Basic

/-!
# Reading CBOR

`decode` reads one item that takes up all bytes.  Arrays and maps may be nested 32 deep and have
131072 elements or entries; `decodeWithin` takes another bound on their length.
-/

namespace HullRobot.Cbor

/-- Why bytes are no CBOR item. -/
inductive Malformed where
  | empty
  /-- The bytes end within the item. -/
  | truncated
  /-- There are bytes after the item. -/
  | trailing
  /-- A head, chunk or break that the format does not allow. -/
  | illFormed
  | tooDeep
  /-- A length above what is read. -/
  | tooLong
  deriving DecidableEq

/-- A reader takes bytes from the front and leaves the rest. -/
abbrev Reader (α : Type) := List UInt8 → Except Malformed (α × List UInt8)

/-- How many elements an array, and entries a map, may have if nothing else is said. -/
def maxLength : Nat := 131072

/-- How deep arrays and maps may be nested. -/
def maxDepth : Nat := 32

/-- The head of an item. -/
structure Head where
  major : Nat
  info : Nat
  /-- The number in the head. -/
  value : Nat
  deriving DecidableEq

namespace Head

/-- The item has an open length. -/
def isOpen (h : Head) : Bool := h.info = 31

end Head

/-- Takes `n` bytes. -/
def take : (n : Nat) → Reader (List UInt8)
  | 0, bytes => .ok ([], bytes)
  | _ + 1, [] => .error .truncated
  | n + 1, b :: rest => do
    let (taken, rest) ← take n rest
    .ok (b :: taken, rest)

/-- How many bytes after the first one the number of a head takes. -/
def widthOf (info : Nat) : Nat :=
  if info = 24 then 1
  else if info = 25 then 2
  else if info = 26 then 4
  else if info = 27 then 8
  else 0

/-- The kind of item that a first byte starts. -/
def majorOf (b : UInt8) : Nat := b.toNat / 32

/-- Reads a head.  Only strings, arrays and maps may be of open length, and a simple value in two
bytes is 32 or more. -/
def readHead : Reader Head
  | [] => .error .truncated
  | b :: rest =>
    let major := majorOf b
    let info := b.toNat % 32
    if info < 24 then .ok (⟨major, info, info⟩, rest)
    else if info < 28 then
      match take (widthOf info) rest with
      | .error e => .error e
      | .ok (number, rest) =>
        let value := ofBigEndian number
        if major = 7 ∧ info = 24 ∧ value < 32 then .error .illFormed
        else .ok (⟨major, info, value⟩, rest)
    else if info < 31 then .error .illFormed
    else if 2 ≤ major ∧ major ≤ 5 then .ok (⟨major, info, info⟩, rest)
    else .error .illFormed

/-- Takes the bytes of a string or chunk of length `n`. -/
def readChunk (n : Nat) : Reader (List UInt8) := fun bytes =>
  if 0x8000000000000000 ≤ n then .error .tooLong else take n bytes

/-- Reads chunks of kind `major` up to a break. -/
def readChunks (major : Nat) : (rounds : Nat) → Reader (List (List UInt8))
  | 0, _ => .error .truncated
  | _, [] => .error .truncated
  | rounds + 1, b :: rest =>
    if b = breakByte then .ok ([], rest)
    else if majorOf b ≠ major ∨ b.toNat % 32 = 31 then .error .illFormed
    else do
      let (h, rest) ← readHead (b :: rest)
      let (chunk, rest) ← readChunk h.value rest
      let (chunks, rest) ← readChunks major rounds rest
      .ok (chunk :: chunks, rest)

/-- Reads a string with the given head. -/
def readString (h : Head) : Reader (List (List UInt8)) := fun bytes =>
  if h.isOpen then readChunks h.major (bytes.length + 1) bytes
  else do
    let (chunk, rest) ← readChunk h.value bytes
    .ok ([chunk], rest)

/-- Reads `n` items. -/
def readMany (one : Reader Item) : (n : Nat) → Reader (List Item)
  | 0, bytes => .ok ([], bytes)
  | n + 1, bytes => do
    let (item, rest) ← one bytes
    let (items, rest) ← readMany one n rest
    .ok (item :: items, rest)

/-- Reads items up to a break, at most `room` of them. -/
def readUntilBreak (one : Reader Item) : (rounds room : Nat) → Reader (List Item)
  | 0, _, _ => .error .truncated
  | _, _, [] => .error .truncated
  | rounds + 1, room, b :: rest =>
    if b = breakByte then .ok ([], rest)
    else do
      let (item, rest) ← one (b :: rest)
      if room = 0 then .error .tooLong
      else
        let (items, rest) ← readUntilBreak one rounds (room - 1) rest
        .ok (item :: items, rest)

/-- The entries of a map from its keys and values in a row. -/
def pairUp : List Item → List (Item × Item)
  | key :: value :: rest => (key, value) :: pairUp rest
  | _ => []

/-- Reads the elements of an array, at most `bound` of them. -/
def readArray (bound : Nat) (one : Reader Item) (h : Head) : Reader Item := fun bytes => do
  if h.isOpen then
    let (items, rest) ← readUntilBreak one (bytes.length + 1) bound bytes
    .ok (.array items, rest)
  else if bound < h.value then .error .tooLong
  else
    let (items, rest) ← readMany one h.value bytes
    .ok (.array items, rest)

/-- Reads the entries of a map, at most `bound` of them. -/
def readMap (bound : Nat) (one : Reader Item) (h : Head) : Reader Item := fun bytes => do
  if h.isOpen then
    let (items, rest) ← readUntilBreak one (bytes.length + 1) (2 * bound + 1) bytes
    if items.length % 2 = 1 then .error .illFormed else .ok (.map (pairUp items), rest)
  else if bound < h.value then .error .tooLong
  else
    let (items, rest) ← readMany one (2 * h.value) bytes
    .ok (.map (pairUp items), rest)

/-- The item of a head of kind 7. -/
def ofSimpleHead (h : Head) : Item :=
  if h.info < 25 then .simple h.value else .float (bigEndian (widthOf h.info) h.value)

/-- Reads an item without a tag after its head.  `inner` reads the elements of arrays and maps, if
there may be any. -/
def readUntagged (bound : Nat) (inner : Option (Reader Item)) (h : Head) : Reader Item :=
  fun bytes =>
  match h.major with
  | 0 => .ok (.unsigned h.value, bytes)
  | 1 => .ok (.negative h.value, bytes)
  | 2 => do
    let (chunks, rest) ← readString h bytes
    .ok (.bytes chunks, rest)
  | 3 => do
    let (chunks, rest) ← readString h bytes
    .ok (.text chunks, rest)
  | 4 =>
    match inner with
    | none => .error .tooDeep
    | some one => readArray bound one h bytes
  | 5 =>
    match inner with
    | none => .error .tooDeep
    | some one => readMap bound one h bytes
  | _ => .ok (ofSimpleHead h, bytes)

/-- Reads the content of a tag.  A tag on a tag is one level deeper. -/
def readContent (bound : Nat) (inner : Option (Reader Item)) : Reader Item
  | [] => .error .truncated
  | b :: rest => do
    let (h, after) ← readHead (b :: rest)
    if h.major = 6 then
      match inner with
      | none => .error .tooDeep
      | some one => one (b :: rest)
    else readUntagged bound inner h after

/-- Reads an item. -/
def readItem (bound : Nat) (inner : Option (Reader Item)) : Reader Item := fun bytes => do
  let (h, rest) ← readHead bytes
  if h.major = 6 then
    let (content, rest) ← readContent bound inner rest
    .ok (.tag h.value content, rest)
  else readUntagged bound inner h rest

/-- Reads an item with at most `levels` arrays and maps around anything in it. -/
def readNested (bound : Nat) : (levels : Nat) → Reader Item
  | 0 => readItem bound none
  | levels + 1 => readItem bound (some (readNested bound levels))

/-- The item that the bytes are, with arrays and maps of length at most `bound`. -/
def decodeWithin (bound : Nat) (bytes : List UInt8) : Except Malformed Item :=
  if bytes.isEmpty then .error .empty
  else
    match readNested bound maxDepth bytes with
    | .error e => .error e
    | .ok (item, rest) => if rest.isEmpty then .ok item else .error .trailing

/-- The item that the bytes are. -/
def decode : List UInt8 → Except Malformed Item := decodeWithin maxLength

end HullRobot.Cbor
