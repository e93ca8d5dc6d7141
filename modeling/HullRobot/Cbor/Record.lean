import HullRobot.Cbor.Basic
import HullRobot.Text.Utf8

/-!
# Records in CBOR

A record is read from a map with text keys.  Reading goes on after a value that does not fit, so
that it gives what could be read beside the first error.
-/

namespace HullRobot.Cbor

/-- Why an item does not give the value that is asked for. -/
inductive Mismatch where
  /-- The item is of another kind, or a number out of range. -/
  | kind
  /-- A text is not valid UTF-8. -/
  | text
  /-- A tag stands on an item that it does not go with. -/
  | tag
  deriving DecidableEq

/-- What was read, and the first error. -/
structure Reading (α : Type) where
  value : α
  error : Option Mismatch := none

/-- What an item is, its tags aside. -/
inductive View where
  | integer (i : Int)
  | null
  | array (items : List Item)
  | map (entries : List (Item × Item))
  /-- A boolean, float or string. -/
  | other

/-- The chunks of a text are valid UTF-8. -/
def validText (chunks : List (List UInt8)) : Bool :=
  chunks.all fun chunk => (Text.strict? chunk).isSome

/-- The tag may stand on the item.  A date is a text or a number, a large integer is bytes. -/
def tagFits (number : Nat) (content : Item) : Bool :=
  match number, content with
  | 0, .text _ => true
  | 1, .unsigned _ => true
  | 1, .negative _ => true
  | 1, .float _ => true
  | 2, .bytes _ => true
  | 3, .bytes _ => true
  | n, _ => 3 < n

/-- Looks at an item.  Simple values without a meaning of their own count as integers, and bytes
under the tags 2 and 3 are large integers. -/
def view : Item → Except Mismatch View
  | .unsigned n => .ok (.integer n)
  | .negative n => .ok (.integer (-1 - n))
  | .bytes _ => .ok .other
  | .text chunks => if validText chunks then .ok .other else .error .text
  | .array items => .ok (.array items)
  | .map entries => .ok (.map entries)
  | .simple n =>
    if n = 20 ∨ n = 21 then .ok .other
    else if n = 22 ∨ n = 23 then .ok .null
    else .ok (.integer n)
  | .float _ => .ok .other
  | .tag 2 (.bytes chunks) => .ok (.integer (ofBigEndian chunks.flatten))
  | .tag 3 (.bytes chunks) => .ok (.integer (-1 - ofBigEndian chunks.flatten))
  | .tag number content => if tagFits number content then view content else .error .tag

/-- Reads an integer that `fits`.  Null is zero. -/
def readInteger {α : Type} (zero : α) (fits? : Int → Option α) (item : Item) : Reading α :=
  match view item with
  | .error e => ⟨zero, some e⟩
  | .ok .null => ⟨zero, none⟩
  | .ok (.integer i) =>
    match fits? i with
    | some a => ⟨a, none⟩
    | none => ⟨zero, some .kind⟩
  | .ok _ => ⟨zero, some .kind⟩

/-- A signed number of 64 bits. -/
def readInt64 : Item → Reading Int64 :=
  readInteger 0 fun i =>
    if Int64.minValue.toInt ≤ i ∧ i ≤ Int64.maxValue.toInt then some (Int64.ofInt i) else none

/-- An unsigned number of 64 bits. -/
def readUInt64 : Item → Reading UInt64 :=
  readInteger 0 fun i => if 0 ≤ i ∧ i < UInt64.size then some (UInt64.ofNat i.toNat) else none

/-- The first of the errors of readings. -/
def firstError {α : Type} (readings : List (Reading α)) : Option Mismatch :=
  readings.findSome? fun r => r.error

/-- Reads a list.  Null is no list. -/
def readList {α : Type} (one : Item → Reading α) (item : Item) : Reading (Option (List α)) :=
  match view item with
  | .error e => ⟨none, some e⟩
  | .ok .null => ⟨none, none⟩
  | .ok (.array items) =>
    let readings := items.map one
    ⟨some (readings.map Reading.value), firstError readings⟩
  | .ok _ => ⟨none, some .kind⟩

/-- A field of a record: its name, and how a record takes its value from an item. -/
structure Field (σ : Type) where
  name : String
  set : σ → Item → Reading σ

/-- A byte with a capital letter made small. -/
def lowerByte (b : UInt8) : UInt8 := if 65 ≤ b ∧ b ≤ 90 then b + 32 else b

/-- The key names the field, in capital or small letters. -/
def Field.isNamed {σ : Type} (f : Field σ) (key : List UInt8) : Bool :=
  key.map lowerByte = (Text.bytes f.name).map lowerByte

/-- The name in a key.  An integer is a key, but names nothing. -/
def keyName? : Item → Except Mismatch (Option (List UInt8))
  | .text chunks => if validText chunks then .ok (some chunks.flatten) else .error .text
  | .unsigned _ => .ok none
  | .negative n => if n < 0x8000000000000000 then .ok none else .error .kind
  | _ => .error .kind

/-- Reads the entries of a map into a record.  A field takes the first entry with its name; entries
without a field are passed over. -/
def readEntries {σ : Type} : List (Field σ) → List (Item × Item) → σ → Reading σ
  | _, [], s => ⟨s, none⟩
  | fields, (key, value) :: rest, s =>
    match keyName? key with
    | .error e => ⟨(readEntries fields rest s).value, some e⟩
    | .ok none => readEntries fields rest s
    | .ok (some name) =>
      match fields.find? fun f => f.isNamed name with
      | none => readEntries fields rest s
      | some f =>
        let now := f.set s value
        let later := readEntries (fields.filter fun g => g.name ≠ f.name) rest now.value
        ⟨later.value, now.error.or later.error⟩

/-- Reads a record, starting from `zero`.  Null is `zero`. -/
def readRecord {σ : Type} (fields : List (Field σ)) (zero : σ) (item : Item) : Reading σ :=
  match view item with
  | .error e => ⟨zero, some e⟩
  | .ok .null => ⟨zero, none⟩
  | .ok (.map entries) => readEntries fields entries zero
  | .ok _ => ⟨zero, some .kind⟩

/-- A field whose value is read by `read`. -/
def fieldOf {σ α : Type} (name : String) (read : Item → Reading α) (set : σ → α → σ) : Field σ where
  name
  set s item :=
    let r := read item
    ⟨set s r.value, r.error⟩

end HullRobot.Cbor
