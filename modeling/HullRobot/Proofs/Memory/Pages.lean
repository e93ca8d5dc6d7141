import HullRobot.Memory.Load
import HullRobot.Memory.Store
import HullRobot.Proofs.Memory.Search

/-!
# Memory as a list of pages

The directory and the blocks of a memory belong together entry by entry.  Here they are read as one
list of pages, `Memory.build`, and loads are read off that list.

* `Laid`: every page has cells and lies below the last address.  `Ordered`: the pages follow each
  other without overlap.
* `cellOf`: the cell that the first page with the address has for it, or 0.
* `load_build`: a load gives the cell of the page that the search finds.
* `found_eq_cellOf`: **on ordered pages that is the cell of the only page with the address.**
-/

namespace HullRobot.Memory

/-! ### Ranges -/

/-- The `count` addresses from `address` on are addresses and within `limit`. -/
def Accepts (limit address : Int64) (count : Nat) : Prop :=
  0 ≤ address.toInt ∧ address.toInt + count ≤ addressStop ∧
    (limit = 0 ∨ address.toInt + count ≤ limit.toInt)

instance (limit address : Int64) (count : Nat) : Decidable (Accepts limit address count) :=
  inferInstanceAs (Decidable (_ ∧ _ ∧ _))

theorem toNat_eq_toInt {a : Int64} (h : 0 ≤ a.toInt) : (a.toNatClampNeg : Int) = a.toInt := by
  rw [← Int64.toNat_toInt]
  exact Int.toNat_of_nonneg h

theorem neg_iff_toInt {a : Int64} : a < 0 ↔ a.toInt < 0 := by
  rw [Int64.lt_iff_toInt_lt]
  rfl

theorem lt_ofNat_iff (limit : Int64) {n : Nat} (h : n ≤ addressStop) :
    limit < Int64.ofNat n ↔ limit.toInt < n := by
  rw [Int64.lt_iff_toInt_lt, Int64.toInt_ofNat_of_lt (by simp only [addressStop] at h; omega)]

theorem checkRange_ok_iff {limit address : Int64} {access : Access} {count : Nat} :
    checkRange limit access address count = .ok () ↔ Accepts limit address count := by
  unfold checkRange Accepts
  by_cases hNeg : address < 0
  · have hInt := neg_iff_toInt.mp hNeg
    simp only [hNeg, true_or, if_true, reduceCtorEq, false_iff]
    omega
  · have hInt : 0 ≤ address.toInt := by rw [neg_iff_toInt] at hNeg; omega
    have hNat := toNat_eq_toInt hInt
    by_cases hTop : addressStop < address.toNatClampNeg + count
    · simp only [hTop, or_true, if_true, reduceCtorEq, false_iff]
      omega
    · simp only [hNeg, hTop, or_self, if_false]
      have hLimit := lt_ofNat_iff limit (Nat.le_of_not_lt hTop)
      by_cases hZero : limit = 0
      · simp only [hZero, ne_eq, not_true_eq_false, false_and, if_false, true_or, and_true,
          true_iff]
        omega
      · by_cases hOver : limit < Int64.ofNat (address.toNatClampNeg + count)
        · simp only [ne_eq, hZero, not_false_eq_true, hOver, and_self, if_true, reduceCtorEq,
            false_or, false_iff]
          have := hLimit.mp hOver
          omega
        · simp only [ne_eq, hZero, not_false_eq_true, hOver, and_false, if_false, false_or,
            true_iff]
          have := mt hLimit.mpr hOver
          omega

/-! ### Pages -/

/-- A page: where it starts, and its cells. -/
structure Page where
  base : Nat
  cells : Array Int64

namespace Page

/-- The entry of the page in the directory. -/
def extent (p : Page) : Extent := ⟨p.base, p.cells.size⟩

/-- The first address after the page. -/
def stop (p : Page) : Nat := p.base + p.cells.size

/-- The cell that the page has for an address. -/
def cell? (p : Page) (a : Nat) : Option Int64 := if p.base ≤ a then p.cells[a - p.base]? else none

@[simp] theorem extent_base (p : Page) : p.extent.base = p.base := rfl

@[simp] theorem extent_stop (p : Page) : p.extent.stop = p.stop := rfl

theorem cell?_of_le {p : Page} {a : Nat} (h : p.base ≤ a) : p.cell? a = p.cells[a - p.base]? :=
  if_pos h

theorem cell?_eq_none {p : Page} {a : Nat} (h : a < p.base ∨ p.stop ≤ a) : p.cell? a = none := by
  by_cases hBase : p.base ≤ a
  · rw [cell?_of_le hBase, Array.getElem?_eq_none (by simp only [stop] at h; omega)]
  · exact if_neg hBase

theorem cell?_isSome {p : Page} {a : Nat} (hBase : p.base ≤ a) (hStop : a < p.stop) :
    (p.cell? a).isSome := by
  rw [cell?_of_le hBase, Array.getElem?_eq_getElem (by simp only [stop] at hStop; omega)]
  rfl

theorem bounds_of_cell? {p : Page} {a : Nat} {v : Int64} (h : p.cell? a = some v) :
    p.base ≤ a ∧ a < p.stop := by
  by_cases hOut : a < p.base ∨ p.stop ≤ a
  · rw [cell?_eq_none hOut] at h
    cases h
  · omega

end Page

/-- The memory with these pages. -/
def build (pageSize limit : Int64) (pages : List Page) : Memory :=
  { pageSize, limit, extents := (pages.map Page.extent).toArray,
    blocks := (pages.map Page.cells).toArray }

/-- Every page has cells, and none of them goes beyond the last address. -/
def Laid (pages : List Page) : Prop := ∀ p ∈ pages, p.base < p.stop ∧ p.stop ≤ addressStop

/-- Every page starts at or after the end of all pages in front of it. -/
def Ordered (pages : List Page) : Prop := pages.Pairwise fun p q => p.stop ≤ q.base

/-- The cell that the first page with the address has for it; 0 if there is none. -/
def cellOf (pages : List Page) (a : Nat) : Int64 := (pages.findSome? (·.cell? a)).getD 0

theorem cellOf_cons (p : Page) (rest : List Page) (a : Nat) :
    cellOf (p :: rest) a = (p.cell? a).getD (cellOf rest a) := by
  unfold cellOf
  rw [List.findSome?_cons]
  cases p.cell? a <;> rfl

theorem cellOf_eq_zero {pages : List Page} {a : Nat}
    (h : ∀ p ∈ pages, a < p.base ∨ p.stop ≤ a) : cellOf pages a = 0 := by
  rw [cellOf, List.findSome?_eq_none_iff.mpr fun p hp => Page.cell?_eq_none (h p hp)]
  rfl

theorem Ordered.inOrder {pages : List Page} (h : Ordered pages) :
    InOrder (pages.map Page.extent).toArray :=
  List.pairwise_map.mpr h

theorem Ordered.base_le {pages : List Page} (h : Ordered pages) (hLaid : Laid pages) {i j : Nat}
    (hij : i ≤ j) {p q : Page} (hp : pages[i]? = some p) (hq : pages[j]? = some q) :
    p.base ≤ q.base := by
  obtain ⟨hi, rfl⟩ := List.getElem?_eq_some_iff.mp hp
  obtain ⟨hj, rfl⟩ := List.getElem?_eq_some_iff.mp hq
  rcases Nat.eq_or_lt_of_le hij with rfl | hlt
  · exact Nat.le_refl _
  · have hStop := List.pairwise_iff_getElem.mp h i j hi hj hlt
    have hBase := (hLaid _ (List.getElem_mem hi)).1
    omega

/-! ### Loads -/

/-- The position at which the search for an address ends. -/
def found (pages : List Page) (a : Nat) : Nat := locate (pages.map Page.extent).toArray a

/-- The cell that a load gives: that of the page the search finds; 0 if it has none. -/
def foundCell (pages : List Page) (a : Nat) : Int64 :=
  ((pages[found pages a]?).bind (·.cell? a)).getD 0

theorem reaches_pages_iff {pages : List Page} {index a : Nat} :
    reaches (pages.map Page.extent).toArray index a = true ↔
      ∃ p, pages[index]? = some p ∧ p.base ≤ a := by
  rw [reaches_iff, List.getElem?_toArray, List.getElem?_map]
  cases pages[index]? with
  | none => simp
  | some p => simp

theorem found_spec (pages : List Page) (a : Nat) :
    (found pages a = 0 ∨ ∃ p, pages[found pages a]? = some p ∧ p.base ≤ a) ∧
      ∀ p, pages[found pages a + 1]? = some p → a < p.base := by
  obtain ⟨hHere, hNext⟩ := locate_spec (pages.map Page.extent).toArray a
  rw [← found] at hHere hNext
  refine ⟨hHere.imp_right reaches_pages_iff.mp, fun p hp => ?_⟩
  by_cases hBase : p.base ≤ a
  · rw [reaches_pages_iff.mpr ⟨p, hp, hBase⟩] at hNext
    cases hNext
  · omega

theorem found_lt {pages : List Page} (h : pages ≠ []) (a : Nat) : found pages a < pages.length := by
  have hSome : 0 < (pages.map Page.extent).toArray.size := by
    simpa using List.length_pos_iff.mpr h
  simpa [found] using locate_lt hSome a

/-- **On ordered pages the search finds the only page that can have the address.** -/
theorem eq_found_of_holds {pages : List Page} (hOrder : Ordered pages) {a j : Nat} {q : Page}
    (hq : pages[j]? = some q) (hBase : q.base ≤ a) (hStop : a < q.stop) : found pages a = j := by
  refine hOrder.inOrder.locate_eq_of_holds (e := q.extent) ?_ hBase hStop
  rw [List.getElem?_toArray, List.getElem?_map, hq, Option.map_some]

theorem found_eq_cellOf {pages : List Page} (hOrder : Ordered pages) (a : Nat) :
    foundCell pages a = cellOf pages a := by
  by_cases hHeld : ∃ q ∈ pages, q.base ≤ a ∧ a < q.stop
  · obtain ⟨q, hMem, hBase, hStop⟩ := hHeld
    obtain ⟨j, hj, rfl⟩ := List.getElem_of_mem hMem
    have hFound := eq_found_of_holds hOrder (List.getElem?_eq_getElem hj) hBase hStop
    rw [foundCell, hFound, List.getElem?_eq_getElem hj, Option.bind_some]
    obtain ⟨v, hv⟩ := Option.isSome_iff_exists.mp (Page.cell?_isSome hBase hStop)
    rw [hv, Option.getD_some, cellOf]
    cases hFirst : pages.findSome? (·.cell? a) with
    | none =>
      rw [List.findSome?_eq_none_iff.mp hFirst _ (List.getElem_mem hj)] at hv
      cases hv
    | some w =>
      -- The first page with the address is the page that was found.
      obtain ⟨p, hpMem, hw⟩ := List.exists_of_findSome?_eq_some hFirst
      obtain ⟨i, hi, rfl⟩ := List.getElem_of_mem hpMem
      have hBounds := Page.bounds_of_cell? hw
      have hSame := eq_found_of_holds hOrder (List.getElem?_eq_getElem hi) hBounds.1 hBounds.2
      obtain rfl : i = j := by omega
      rw [hv] at hw
      exact Option.some.inj hw
  · have hOut : ∀ p ∈ pages, a < p.base ∨ p.stop ≤ a := fun p hp => by
      by_cases hBase : p.base ≤ a
      · exact Or.inr (Nat.le_of_not_lt fun hStop => hHeld ⟨p, hp, hBase, hStop⟩)
      · exact Or.inl (by omega)
    rw [cellOf_eq_zero hOut, foundCell]
    cases hGet : pages[found pages a]? with
    | none => rfl
    | some p => rw [Option.bind_some, Page.cell?_eq_none (hOut p (List.mem_of_getElem? hGet))]; rfl

/-- **A load gives the cell of the page that the search finds**, or the fault of its range. -/
theorem load_build (pageSize limit a : Int64) (pages : List Page) :
    (build pageSize limit pages).load a =
      match checkRange limit .load a 1 with
      | .error f => .error (.fault f)
      | .ok () => .ok (foundCell pages a.toNatClampNeg) := by
  unfold load
  simp only [build]
  cases checkRange limit .load a 1 with
  | error f => rfl
  | ok u =>
    by_cases hEmpty : pages = []
    · subst hEmpty
      simp [foundCell]
    · have hLt := found_lt hEmpty a.toNatClampNeg
      obtain ⟨p, hp⟩ : ∃ p, pages[found pages a.toNatClampNeg]? = some p :=
        ⟨_, List.getElem?_eq_getElem hLt⟩
      have hNonempty : (pages.map Page.cells).toArray.isEmpty = false := by
        simpa using hEmpty
      simp only [hNonempty, Bool.false_eq_true, if_false, List.getElem?_toArray, List.getElem?_map]
      rw [← found, hp]
      simp only [Option.map_some, foundCell, hp, Option.bind_some, Page.cell?]
      by_cases hBase : p.base ≤ a.toNatClampNeg
      · rw [if_pos (show p.extent.base ≤ _ from hBase), if_pos hBase]
        rfl
      · rw [if_neg (show ¬p.extent.base ≤ _ from hBase), if_neg hBase]
        rfl

end HullRobot.Memory
