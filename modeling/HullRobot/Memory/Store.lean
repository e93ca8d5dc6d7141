import HullRobot.Memory.Basic

/-!
# Storing cells

A store checks its whole range first, then walks the directory from the page of its first address
and makes the pages it needs.  A new page starts at a multiple of the page size.  It stops short of
the page after it, and one at the end of the directory starts no earlier than the last page ends.

A page is entered into the directory before its block is made.  If that crashes, the directory
stays one entry longer than the blocks.  A later store may then come to a page that has no block, or
make one whose block would have its place behind the end of the blocks; it crashes there.
-/

namespace HullRobot.Memory

/-- What page `page` of the directory has for a store at `address`. -/
inductive Slot where
  /-- The page ends before the address. -/
  | pass
  /-- The page holds the address. -/
  | held (extent : Extent)
  /-- No page holds the address, and this one is to be made for it. -/
  | fresh (extent : Extent)
  deriving DecidableEq

/-- Cuts a page so that it stays below the last address. -/
def clamp (e : Extent) : Extent := { e with size := min e.size (addressStop - e.base) }

/-- The page made for `address` when the next page starts at `next`. -/
def gapExtent (pageSize address next : Nat) : Extent :=
  let base := address / pageSize * pageSize
  clamp ⟨base, min pageSize (next - base)⟩

/-- The page made for `address` behind a last page that ends at `stop`. -/
def tailExtent (pageSize address stop : Nat) : Extent :=
  let base := address / pageSize * pageSize
  if base < stop then clamp ⟨stop, pageSize - (stop - base)⟩ else clamp ⟨base, pageSize⟩

/-- Looks for `address` at position `page` of the directory. -/
def slot (extents : Array Extent) (pageSize page address : Nat) : Slot :=
  match extents[page]? with
  | some e =>
    if address < e.base then .fresh (gapExtent pageSize address e.base)
    else if e.size ≤ address - e.base then .pass
    else .held e
  | none => .fresh (tailExtent pageSize address ((extents.back?.map Extent.stop).getD 0))

/-- Enters a page into the directory at position `page` and makes its block. -/
def allocate (m : Memory) (page : Nat) (e : Extent) : EStateM.Result Error Memory Unit :=
  let entered := { m with extents := m.extents.insertIdxIfInBounds page e }
  if largestBlock < e.size then .error (.crash .allocation) entered
  else if m.blocks.size < page then
    .error (.crash (.shortBlock (page + 1) (m.blocks.size + 1)))
      { entered with blocks := m.blocks.push #[] }
  else
    .ok () { entered with
      blocks := entered.blocks.insertIdxIfInBounds page (Array.replicate e.size 0) }

/-- Writes `values` into block `page` from `offset` on, as many as fit.  Gives the number of cells
that were written. -/
def fill (m : Memory) (page offset : Nat) (values : List Int64) :
    EStateM.Result Error Memory Nat :=
  match m.blocks[page]?.map Array.size with
  | none => .error (.crash (.outOfRange page m.blocks.size)) m
  | some count =>
    if count < offset then .error (.crash (.shortBlock offset count)) m
    else
      let written := min (count - offset) values.length
      .ok written { m with
        blocks := m.blocks.modify page (overwrite · offset (values.take written)) }

/-- Stores `values` from `address` on into the pages from `page` on.  Each round passes a page or
stores at least one value, so the rounds that `store` grants are enough. -/
def storeFrom : (rounds : Nat) → Memory → (pageSize page address : Nat) → List Int64 →
    EStateM.Result Error Memory Unit
  | 0, m, _, _, _, _ => .ok () m
  | _, m, _, _, _, [] => .ok () m
  | rounds + 1, m, pageSize, page, address, values =>
    match slot m.extents pageSize page address with
    | .pass =>
      if page < m.blocks.size then storeFrom rounds m pageSize (page + 1) address values
      else .error (.crash (.outOfRange page m.blocks.size)) m
    | .held e =>
      match fill m page (address - e.base) values with
      | .error c m => .error c m
      | .ok n m => storeFrom rounds m pageSize (page + 1) (address + n) (values.drop n)
    | .fresh e =>
      match allocate m page e with
      | .error c m => .error c m
      | .ok () m =>
        match fill m page (address - e.base) values with
        | .error c m => .error c m
        | .ok n m => storeFrom rounds m pageSize (page + 1) (address + n) (values.drop n)

/-- Stores `values` from `address` on.  A page size that is not positive becomes the default first,
and an empty list of values is never refused. -/
def store (m : Memory) (address : Int64) (values : List Int64) :
    EStateM.Result Error Memory Unit :=
  if values.isEmpty then .ok () m
  else
    match checkRange m.limit .store address values.length with
    | .error f => .error (.fault f) m
    | .ok () =>
      let m := if m.pageSize ≤ 0 then { m with pageSize := defaultPageSize } else m
      let a := address.toNatClampNeg
      storeFrom (m.extents.size + values.length) m m.pageSize.toNatClampNeg
        (locate m.extents a) a values

end HullRobot.Memory
