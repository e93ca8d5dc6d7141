import HullRobot.Memory.Basic

/-!
# Loading cells

Loads never make pages: a cell outside of every page reads as 0.
-/

namespace HullRobot.Memory

/-- The cell at `address`. -/
def load (m : Memory) (address : Int64) : Except Error Int64 :=
  match checkRange m.limit .load address 1 with
  | .error f => .error (.fault f)
  | .ok () =>
    if m.blocks.isEmpty then .ok 0
    else
      let a := address.toNatClampNeg
      let page := locate m.extents a
      match m.extents[page]?, m.blocks[page]? with
      | some e, some block => .ok (if e.base ≤ a then block[a - e.base]?.getD 0 else 0)
      | _, _ => .error (.crash (.outOfRange page m.blocks.size))

/-- Copies the pages `extents`, of which the first has number `page`, into a buffer whose first cell
is that of address `origin`.  The first `filled` cells of the buffer are done before, and as many as
the result says are done after. -/
def copyPages (blocks : Array (Array Int64)) (origin : Nat) :
    List Extent → (page filled : Nat) → Array Int64 → EStateM.Result Crash (Array Int64) Nat
  | [], _, filled, buffer => .ok filled buffer
  | e :: rest, page, filled, buffer =>
    let address := origin + filled
    let stop := origin + buffer.size
    if stop ≤ address ∨ stop ≤ e.base then .ok filled buffer
    else
      let start := max address e.base
      -- What lies before the page reads as 0.
      let buffer := overwrite buffer filled (List.replicate (start - address) 0)
      match blocks[page]? with
      | none => .error (.outOfRange page blocks.size) buffer
      | some block =>
        let cells := (block.extract (start - e.base) (stop - e.base)).toList
        copyPages blocks origin rest (page + 1) (start - origin + cells.length)
          (overwrite buffer (start - origin) cells)

/-- Loads the cells from `address` on into a buffer, as many as it has.  If the range is refused the
buffer stays as it is; an empty range never is. -/
def loadInto (m : Memory) (address : Int64) (buffer : Array Int64) :
    EStateM.Result Error (Array Int64) Unit :=
  if buffer.isEmpty then .ok () buffer
  else
    match checkRange m.limit .load address buffer.size with
    | .error f => .error (.fault f) buffer
    | .ok () =>
      let a := address.toNatClampNeg
      let page := locate m.extents a
      match copyPages m.blocks a (m.extents.toList.drop page) page 0 buffer with
      | .error c buffer => .error (.crash c) buffer
      | .ok filled buffer =>
        .ok () (overwrite buffer filled (List.replicate (buffer.size - filled) 0))

/-- The `count` cells from `address` on. -/
def loadRange (m : Memory) (address : Int64) (count : Nat) : Except Error (List Int64) :=
  match m.loadInto address (Array.replicate count 0) with
  | .ok () buffer => .ok buffer.toList
  | .error e _ => .error e

end HullRobot.Memory
