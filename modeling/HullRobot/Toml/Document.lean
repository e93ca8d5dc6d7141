import HullRobot.Toml.Parse

/-!
# TOML documents

A document is the tree of tables that the statements of a text define.  A table that is only named
on the way to another one is implicit, and may be defined once later.

An inline table is read twice at once: its pairs define keys of the document, and they make up a
value of its own.  The value takes the place of the document's table if that one is recorded as an
array, and then the two are one table.  So the tables of a draft are numbered, and keys stand for
numbers until the document is complete.
-/

namespace HullRobot.Toml

/-- What a key stands for. -/
inductive Node where
  | leaf (value : Value)
  | table (entries : List (String × Node))
  /-- An array of tables. -/
  | tables (elements : List (List (String × Node)))
  deriving Inhabited

/-- The keys of a table and what they stand for. -/
abbrev Entries := List (String × Node)

/-- What a key of a draft stands for, with numbers for tables. -/
inductive Slot where
  | leaf (value : Value)
  | table (number : Nat)
  /-- An array of tables. -/
  | tables (numbers : List Nat)

/-- The table that keys below this one belong to.  Of an array of tables it is the last one. -/
def Slot.inner? : Slot → Option Nat
  | .leaf _ => none
  | .table number => some number
  | .tables numbers => numbers.getLast?

/-- The keys of a table of a draft. -/
abbrev Slots := List (String × Slot)

namespace Slots

/-- What a key stands for. -/
def find? (slots : Slots) (name : String) : Option Slot :=
  (List.find? (fun entry => entry.1 = name) slots).map Prod.snd

/-- Lets a key stand for a slot. -/
def put (name : String) (slot : Slot) : Slots → Slots
  | [] => [(name, slot)]
  | (other, old) :: rest =>
    if other = name then (name, slot) :: rest else (other, old) :: put name slot rest

end Slots

/-- A document that is being read. -/
structure Draft where
  /-- The tables by their numbers.  The root has number 0. -/
  tables : Array Slots := #[[]]
  /-- The table that keys belong to. -/
  context : Key := []
  implicit : List Key := []
  /-- The keys that stand for arrays. -/
  arrays : List Key := []
  /-- All keys and headers, the last one first. -/
  keys : List Key := []

namespace Draft

/-- Marks a table as implicit. -/
def markImplicit (d : Draft) (path : Key) : Draft := { d with implicit := path :: d.implicit }

/-- A table is no longer implicit. -/
def markDefined (d : Draft) (path : Key) : Draft :=
  { d with implicit := d.implicit.filter (· ≠ path) }

/-- Remembers whether a key of the present table stands for an array.  An empty key stands for the
table itself. -/
def setArray (d : Draft) (name : String) (isArray : Bool) : Draft :=
  let path := if name.isEmpty then d.context else d.context ++ [name]
  let path := if path.isEmpty then [""] else path
  let others := d.arrays.filter (· ≠ path)
  { d with arrays := if isArray then path :: others else others }

/-- Remembers a key or header. -/
def addKey (d : Draft) (key : Key) : Draft := { d with keys := key :: d.keys }

/-- The keys of a table. -/
def slots (d : Draft) (table : Nat) : Slots := d.tables.getD table []

/-- What a key of a table stands for. -/
def find? (d : Draft) (table : Nat) (name : String) : Option Slot := (d.slots table).find? name

/-- Lets a key of a table stand for a slot. -/
def put (d : Draft) (table : Nat) (name : String) (slot : Slot) : Draft :=
  { d with tables := d.tables.modify table (Slots.put name slot) }

/-- Adds an empty table and gives its number. -/
def newTable (d : Draft) : Nat × Draft := (d.tables.size, { d with tables := d.tables.push [] })

/-- The table at a path from another one. -/
def tableAt? (d : Draft) (start : Nat) : Key → Option Nat
  | [] => some start
  | name :: path => do
    let slot ← d.find? start name
    d.tableAt? (← slot.inner?) path

/-- Defines a key of the present table.  A key is defined once, but for an implicit table, which
keeps what it holds, and an implicit array. -/
def define (d : Draft) (name : String) (slot : Slot) : Option Draft := do
  let path := d.context ++ [name]
  let table ← d.tableAt? 0 d.context
  match d.find? table name with
  | none => some (d.put table name slot)
  | some _ =>
    if !d.implicit.contains path then none
    else if d.arrays.contains path then some ((d.markDefined path).put table name slot)
    else some (d.markDefined path)

/-- Makes sure that there are tables on the way along `parents`, from a table whose path is
`walked`, and gives the last one. -/
def openParents (d : Draft) (table : Nat) (walked : Key) : (parents : Key) → Option (Nat × Draft)
  | [] => some (table, d)
  | name :: parents => do
    let path := walked ++ [name]
    match d.find? table name with
    | none =>
      let (inner, d) := d.newTable
      openParents ((d.put table name (.table inner)).markImplicit path) inner path parents
    | some slot => openParents d (← slot.inner?) path parents

/-- Adds an element to an array of tables. -/
def addElement (d : Draft) (table : Nat) (name : String) : Option Draft :=
  let (element, added) := d.newTable
  match d.find? table name with
  | none => some (added.put table name (.tables [element]))
  | some (.tables elements) => some (added.put table name (.tables (elements ++ [element])))
  | some _ => none

/-- Goes to the table at a path, which is defined by that, or to a new element of the array of
tables there. -/
def enter (d : Draft) (path : Key) (asElement : Bool) : Option Draft := do
  let name ← path.getLast?
  let (parent, d) ← d.openParents 0 [] path.dropLast
  let d := { d with context := path.dropLast }
  let d ← if asElement then d.addElement parent name else
    let (table, d) := d.newTable
    d.define name (.table table)
  some { d with context := path }

/-- Goes along the first parts of a dotted key. -/
def enterParts (d : Draft) : Key → Option Draft
  | [] => some d
  | part :: parts => do
    let path := d.context ++ [part]
    let d ← (d.markImplicit path).enter path false
    d.enterParts parts

/-- Sets a dotted key in the value of an inline table.  What the key stood for is forgotten, but
only tables may be on the way there. -/
def assign (d : Draft) (table : Nat) (name : String) (slot : Slot) : (parts : Key) → Option Draft
  | [] => some (d.put table name slot)
  | part :: parts =>
    match d.find? table part with
    | none =>
      let (inner, d) := d.newTable
      assign (d.put table part (.table inner)) inner name slot parts
    | some (.table inner) => assign d inner name slot parts
    | some _ => none

/-- The value is an array. -/
def isArray : Value → Bool
  | .array _ => true
  | _ => false

mutual

/-- Defines what a value for `name` defines within itself: the keys of inline tables.  Gives the
value as a slot. -/
def fill (d : Draft) (name : String) (inArray : Bool) : Value → Option (Slot × Draft)
  | .array items => do
    let d ← fillItems (d.setArray name true) name items
    some (.leaf (.array items), d)
  | .inline pairs => do
    let path := d.context ++ [name]
    let (own, inner) := (d.markImplicit path).newTable
    let inner ← inner.enter path inArray
    let inner ← fillPairs inner path own pairs
    some (.table own, { inner with context := d.context })
  | value => some (.leaf value, d)

/-- Defines what the items of an array define. -/
def fillItems (d : Draft) (name : String) : List Value → Option Draft
  | [] => some d
  | item :: items => do
    let (_, d) ← fill d name true item
    fillItems d name items

/-- Defines the pairs of the inline table at `path`, whose value is the table `own`. -/
def fillPairs (d : Draft) (path : Key) (own : Nat) : List (Key × Value) → Option Draft
  | [] => some d
  | (key, value) :: pairs => do
    let d ← enterParts d key.dropLast
    let name ← key.getLast?
    let d := d.addKey (d.context ++ [name])
    let (slot, d) ← fill d name false value
    let d ← d.define name slot
    let d := d.setArray name (isArray value)
    let d ← d.assign own name slot key.dropLast
    fillPairs { d with context := path } path own pairs

end

/-- Takes in a statement. -/
def state (d : Draft) : Statement → Option Draft
  | .table key => do
    let d ← d.enter key false
    some ((d.setArray "" false).addKey key)
  | .element key => do
    let d ← d.enter key true
    some ((d.setArray "" false).addKey key)
  | .pair key value => do
    let inner ← d.enterParts key.dropLast
    let name ← key.getLast?
    let inner := inner.addKey (inner.context ++ [name])
    let (slot, inner) ← inner.fill name false value
    let inner ← inner.define name slot
    some { inner.setArray name (isArray value) with context := d.context }

/-- The node that a slot stands for, down to a depth. -/
def node (d : Draft) : (depth : Nat) → Slot → Node
  | _, .leaf value => .leaf value
  | 0, _ => .table []
  | depth + 1, .table number =>
    .table ((d.slots number).map fun (name, slot) => (name, d.node depth slot))
  | depth + 1, .tables numbers =>
    .tables (numbers.map fun number =>
      (d.slots number).map fun (name, slot) => (name, d.node depth slot))

end Draft

/-- A document: its tables, and its keys and headers in order. -/
structure Document where
  root : Entries := []
  keys : List Key := []

/-- The complete document.  No table lies deeper than there are tables. -/
def Draft.finish (d : Draft) : Document where
  root := (d.slots 0).map fun (name, slot) => (name, d.node d.tables.size slot)
  keys := d.keys.reverse

/-- The document that statements define. -/
def Document.ofStatements (statements : List Statement) : Option Document := do
  some (← statements.foldlM Draft.state {}).finish

/-- The document in a file. -/
def Document.ofBytes (bytes : List UInt8) : Option Document := do
  Document.ofStatements (← parseBytes bytes)

end HullRobot.Toml
