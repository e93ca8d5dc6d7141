import HullRobot.Crash

/-!
# Sparse paged memory

Memory is a line of signed 64-bit cells with addresses from 0 to `2 ^ 63 - 2`.  Only the pages that
were stored to exist; every other cell reads as 0.  A directory of extents says where the pages
lie, and each extent has a block with its cells.  Pages are usually of one size, but the page size
may change between stores, and then pages may also overlap.
-/

namespace HullRobot

/-- The two ways of touching memory. -/
inductive Access where
  | load
  | store
  deriving DecidableEq

/-- The word for an access in messages. -/
def Access.word : Access → String
  | .load => "load"
  | .store => "stor"

namespace Memory

/-- Why memory refuses a range of addresses. -/
inductive Fault where
  /-- The range starts below 0 or ends above the largest address. -/
  | invalidAddress (access : Access) (address : Int64)
  /-- The range ends at `bound`, beyond the limit. -/
  | overLimit (access : Access) (bound : Int64)
  deriving DecidableEq

/-- The text of a fault. -/
def Fault.message : Fault → String
  | .invalidAddress access address =>
    "invalid " ++ access.word ++ " address " ++ Decimal.cell address
  | .overLimit access bound =>
    "memory limit exceeded by " ++ access.word ++ " @" ++ Decimal.cell bound

/-- How a memory operation fails. -/
inductive Error where
  | fault (f : Fault)
  | crash (c : Crash)
  deriving DecidableEq

/-- A page holds the cells from `base` up to `base + size`. -/
structure Extent where
  base : Nat
  size : Nat
  deriving DecidableEq

/-- The first address after the page. -/
def Extent.stop (e : Extent) : Nat := e.base + e.size

/-- The page size that stands in for one that is not positive. -/
def defaultPageSize : Int64 := 256

/-- The first address that no page may hold. -/
def addressStop : Nat := 0x7fffffffffffffff

/-- The largest number of cells that one page can have. -/
def largestBlock : Nat := 0x200000000000

end Memory

/-- Memory: the size of new pages, the first address that may not be touched (0 for no limit), the
directory, and the cells of each page. -/
structure Memory where
  pageSize : Int64 := 0
  limit : Int64 := 0
  extents : Array Memory.Extent := #[]
  blocks : Array (Array Int64) := #[]
  deriving DecidableEq

namespace Memory

/-- Drops all pages and keeps the page size and the limit. -/
def reset (m : Memory) : Memory := { m with extents := #[], blocks := #[] }

/-- The address after the last page of the directory. -/
def size (m : Memory) : Except Crash Nat :=
  match m.extents.back? with
  | none => .ok 0
  | some last =>
    match m.blocks[m.extents.size - 1]? with
    | some block => .ok (last.base + block.size)
    | none => .error (.outOfRange (m.extents.size - 1) m.blocks.size)

/-- The pages in directory order, each with its base and its cells. -/
def pages (m : Memory) : List (Nat × Array Int64) :=
  (m.extents.toList.map Extent.base).zip m.blocks.toList

/-- Accepts the `count` addresses from `address` on if they are addresses and within `limit`. -/
def checkRange (limit : Int64) (access : Access) (address : Int64) (count : Nat) :
    Except Fault Unit :=
  let bound := address.toNatClampNeg + count
  if address < 0 ∨ addressStop < bound then .error (.invalidAddress access address)
  else if limit ≠ 0 ∧ limit < Int64.ofNat bound then
    .error (.overLimit access (Int64.ofNat bound))
  else .ok ()

/-- The page at `index` lies at or below `address`. -/
def reaches (extents : Array Extent) (index address : Nat) : Bool :=
  match extents[index]? with
  | some e => e.base ≤ address
  | none => false

/-- Halves the range `low … high` of directory positions, keeping in it the last page that lies at
or below `address`. -/
def locateWithin (extents : Array Extent) (address : Nat) : (rounds low high : Nat) → Nat
  | 0, low, _ => low
  | rounds + 1, low, high =>
    if low < high then
      let middle := (low + high) / 2 + 1
      if reaches extents middle address then locateWithin extents address rounds middle high
      else locateWithin extents address rounds low (middle - 1)
    else low

/-- The position in the directory at which a search for `address` starts: the last page at or
below it, or the first page if there is none. -/
def locate (extents : Array Extent) (address : Nat) : Nat :=
  locateWithin extents address extents.size 0 extents.size

/-- Writes `values` over cells from `offset` on, as far as the cells go. -/
def overwrite (cells : Array Int64) (offset : Nat) : List Int64 → Array Int64
  | [] => cells
  | v :: vs => overwrite (cells.setIfInBounds offset v) (offset + 1) vs

end Memory

end HullRobot
