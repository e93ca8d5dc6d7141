import HullRobot.Cbor.Decode
import HullRobot.Cbor.Record
import HullRobot.Files
import HullRobot.Robot.Basic

/-!
# Snapshots

A snapshot records the results of a run: the painted panels, the values that the machine gave out,
and how many instructions ran.  It is kept as a CBOR map.
-/

namespace HullRobot

/-- A painted panel. -/
structure Panel where
  x : Int64 := 0
  y : Int64 := 0
  color : Int64 := 0
  deriving DecidableEq

/-- The results of a run.  Panels are absent if there was no robot. -/
structure Snapshot where
  painted : Int64 := 0
  panels : Option (List Panel) := none
  outputs : Option (List Int64) := none
  steps : UInt64 := 0
  deriving DecidableEq

namespace Snapshot

open Cbor

/-- Why bytes are no snapshot. -/
inductive DecodeError where
  | malformed (cause : Malformed)
  | mismatch (cause : Mismatch)
  deriving DecidableEq

/-- The results of a run with the robot `robot?`. -/
def take (robot? : Option Robot) (outputs : Option (List Int64)) (steps : UInt64) : Snapshot :=
  match robot? with
  | none => { outputs, steps }
  | some r =>
    { painted := Int64.ofNat r.painted
      panels := some (r.panelList.map fun (p, color) => ⟨p.x, p.y, color⟩)
      outputs, steps }

/-- A text as an item. -/
def textItem (s : String) : Item := .text [Text.bytes s]

/-- A number as an item. -/
def numberItem (i : Int64) : Item := .ofInt i.toInt

/-- A panel as an item. -/
def panelItem (p : Panel) : Item :=
  .map [(textItem "x", numberItem p.x), (textItem "y", numberItem p.y),
    (textItem "color", numberItem p.color)]

/-- A list as an item; no list is null. -/
def listItem {α : Type} (one : α → Item) : Option (List α) → Item
  | none => .null
  | some xs => .array (xs.map one)

/-- A snapshot as an item.  Its keys are in canonical order: shorter ones first. -/
def item (s : Snapshot) : Item :=
  .map [(textItem "steps", .unsigned s.steps.toNat),
    (textItem "panels", listItem panelItem s.panels),
    (textItem "outputs", listItem numberItem s.outputs),
    (textItem "painted", numberItem s.painted)]

/-- The bytes of a snapshot. -/
def encode (s : Snapshot) : List UInt8 := Cbor.encode s.item

/-- Writes a snapshot into a file. -/
def save (s : Snapshot) (files : Files) (name : String) : Except Files.Error Files :=
  match files.writable name with
  | .error e => .error e
  | .ok path => .ok (files.put path s.encode)

/-- The fields of a panel. -/
def panelFields : List (Cbor.Field Panel) :=
  [fieldOf "x" readInt64 fun p x => { p with x },
    fieldOf "y" readInt64 fun p y => { p with y },
    fieldOf "color" readInt64 fun p color => { p with color }]

/-- The fields of a snapshot. -/
def fields : List (Cbor.Field Snapshot) :=
  [fieldOf "painted" readInt64 fun s painted => { s with painted },
    fieldOf "panels" (readList (readRecord panelFields {})) fun s panels => { s with panels },
    fieldOf "outputs" (readList readInt64) fun s outputs => { s with outputs },
    fieldOf "steps" readUInt64 fun s steps => { s with steps }]

/-- Takes a snapshot from what was read: what there is of it, and the first error. -/
def ofRead : Except Malformed Item → Snapshot × Option DecodeError
  | .error cause => ({}, some (.malformed cause))
  | .ok item =>
    let r := readRecord fields {} item
    (r.value, r.error.map .mismatch)

/-- Reads a snapshot: what could be read, and the first error. -/
def decode (bytes : List UInt8) : Snapshot × Option DecodeError := ofRead (Cbor.decode bytes)

end Snapshot

end HullRobot
