import HullRobot.Proofs.Memory.Frame

/-!
# Stores end and place their values

Pages may overlap and lie in any order when the page size has changed between stores.  A store into
such a memory still comes to an end, and each of its values ends up in a page that has its address.
Only a page that cannot be made can keep it from that.

* `storeWithin_eq`: **more rounds change nothing**, so both loops of a store end by themselves.
* `Spread.places`: every value is written into a page that has its address.
* `Built.wellFormed`: the directory and the blocks belong together.
* `store_places_values`: all this for every memory that a history can leave.
-/

namespace HullRobot.Memory

/-! ### Rounds -/

/-- A store whose search has `search` rounds and whose walk has `rounds` of them. -/
def storeWithin (search rounds : Nat) (m : Memory) (address : Int64) (values : List Int64) :
    EStateM.Result Error Memory Unit :=
  storeFrom rounds { m with pageSize := effectiveSize m.pageSize } (pageCells m.pageSize)
    (locateWithin m.extents address.toNatClampNeg search 0 m.extents.size)
    address.toNatClampNeg values

/-! ### Values in pages -/

/-- A page of `m` has the address, and `v` stands there. -/
def HoldsAt (m : Memory) (a : Nat) (v : Int64) : Prop :=
  ∃ (i : Nat) (e : Extent) (block : Array Int64), m.extents[i]? = some e ∧
    m.blocks[i]? = some block ∧ e.base ≤ a ∧ a < e.stop ∧ block[a - e.base]? = some v

/-- Every entry of the directory has a block of its length, which is not 0, and ends at or before
the last address. -/
structure WellFormed (m : Memory) : Prop where
  blocks_size : m.blocks.size = m.extents.size
  entry : ∀ (i : Nat) (e : Extent), m.extents[i]? = some e →
    0 < e.size ∧ e.base + e.size ≤ addressStop ∧
      ∃ block, m.blocks[i]? = some block ∧ block.size = e.size

/-- A value goes into the page, or it is among those that are left for later pages. -/
theorem Page.write_or_rest {p : Page} {address : Nat} {values : List Int64}
    (hBase : p.base ≤ address) {k : Nat} {v : Int64} (hv : values[k]? = some v) :
    (p.write address values).cell? (address + k) = some v ∨
      ∃ j, (values.drop (p.room address values))[j]? = some v ∧
        address + k = address + p.room address values + j := by
  by_cases hIn : k < p.room address values
  · left
    rw [Page.cell?_write hBase, if_pos (by omega), Nat.add_sub_cancel_left]
    exact hv
  · right
    refine ⟨k - p.room address values, ?_, by omega⟩
    rw [List.getElem?_drop, Nat.add_sub_cancel' (Nat.le_of_not_lt hIn)]
    exact hv

/-- **Every value of a walk is written into a page that has its address.** -/
theorem Spread.places {size stop address : Nat} {pages result : List Page} {values : List Int64}
    (h : Spread size stop pages address values result) {k : Nat} {v : Int64}
    (hv : values[k]? = some v) : ∃ p ∈ result, p.cell? (address + k) = some v := by
  induction h generalizing k with
  | done => cases hv
  | pass _ _ _ _ ih =>
    obtain ⟨p, hp, hCell⟩ := ih hv
    exact ⟨p, List.mem_cons_of_mem _ hp, hCell⟩
  | held _ hBase _ _ ih =>
    rcases Page.write_or_rest hBase hv with hHere | ⟨j, hLater, hPlace⟩
    · exact ⟨_, List.mem_cons_self, hHere⟩
    · obtain ⟨p, hp, hCell⟩ := ih hLater
      exact ⟨p, List.mem_cons_of_mem _ hp, hPlace ▸ hCell⟩
  | fresh _ _ _ hFits _ _ ih =>
    rcases Page.write_or_rest hFits.base_le hv with hHere | ⟨j, hLater, hPlace⟩
    · exact ⟨_, List.mem_cons_self, hHere⟩
    · obtain ⟨p, hp, hCell⟩ := ih hLater
      exact ⟨p, List.mem_cons_of_mem _ hp, hPlace ▸ hCell⟩

section Built

variable {m : Memory} {pages : List Page}

theorem Built.extents_get? (h : Built m pages) (i : Nat) :
    m.extents[i]? = pages[i]?.map Page.extent := by
  rw [← Array.getElem?_toList, h.extents_toList, List.getElem?_map]

theorem Built.blocks_get? (h : Built m pages) (i : Nat) :
    m.blocks[i]? = pages[i]?.map Page.cells := by
  rw [h.eq_build, build, List.getElem?_toArray, List.getElem?_map]

theorem Built.holdsAt (h : Built m pages) {p : Page} (hp : p ∈ pages) {a : Nat} {v : Int64}
    (hCell : p.cell? a = some v) : m.HoldsAt a v := by
  obtain ⟨i, hi⟩ := List.getElem?_of_mem hp
  obtain ⟨hBase, hStop⟩ := Page.bounds_of_cell? hCell
  rw [Page.cell?_of_le hBase] at hCell
  exact ⟨i, p.extent, p.cells, by rw [h.extents_get?, hi]; rfl, by rw [h.blocks_get?, hi]; rfl,
    hBase, hStop, hCell⟩

theorem Built.wellFormed (h : Built m pages) : m.WellFormed := by
  refine ⟨?_, fun i e he => ?_⟩
  · rw [h.eq_build, build]
    simp
  · rw [h.extents_get?] at he
    obtain ⟨p, hp, rfl⟩ := Option.map_eq_some_iff.mp he
    obtain ⟨hPos, hTop⟩ := h.laid p (List.mem_of_getElem? hp)
    refine ⟨Nat.pos_of_lt_add_right hPos, hTop, p.cells, ?_, rfl⟩
    rw [h.blocks_get?, hp]
    rfl

/-! ### Stores -/

/-- A store that is not refused goes through its two loops, whatever rounds they have above those
that they need. -/
theorem Built.storeWithin_eq (h : Built m pages) {address : Int64} {values : List Int64}
    {result : List Page} {search rounds : Nat} (hSearch : m.extents.size ≤ search)
    (hRounds : m.extents.size + values.length ≤ rounds)
    (hWalk : Walk (pageCells m.pageSize) pages address.toNatClampNeg values result) :
    m.storeWithin search rounds address values =
      .ok () (build (effectiveSize m.pageSize) m.limit
        (rebuilt pages address.toNatClampNeg result)) := by
  have hSize : m.extents.size = pages.length := by
    rw [← Array.length_toList, h.extents_toList, List.length_map]
  have hFound : locateWithin m.extents address.toNatClampNeg search 0 m.extents.size =
      (pages.take (found pages address.toNatClampNeg)).length := by
    rw [length_take_found, found, ← h.extents_toList, Array.toArray_toList]
    exact locateWithin_rounds (Nat.lt_of_le_of_lt (hSize ▸ hSearch) Nat.lt_two_pow_self)
      Nat.lt_two_pow_self
  have hMemory : { m with pageSize := effectiveSize m.pageSize } =
      build (effectiveSize m.pageSize) m.limit (pages.take (found pages address.toNatClampNeg) ++
        pages.drop (found pages address.toNatClampNeg)) := by
    rw [List.take_append_drop, h.eq_build]
    rfl
  rw [storeWithin, hFound, hMemory]
  exact hWalk.storeFrom_eq (by rw [List.length_drop]; omega) rfl

end Built

/-- **A store ends and places every value, whatever the page sizes were.**  After any history, a
store whose range is accepted ends within a bounded number of rounds, and it crashes only if a page
cannot be made.  Else each value stands in a page that has its address, and the directory and the
blocks belong together. -/
theorem store_places_values (pageSize limit : Int64) (ops : List Op)
    (hMade : Allocates { pageSize, limit } ops) :
    let m := run { pageSize, limit } ops
    m.WellFormed ∧ ∀ address values, values ≠ [] → Accepts m.limit address values.length →
      (∃ m', m.store address values = .ok () m' ∧
        (∀ search rounds, m.extents.size ≤ search → m.extents.size + values.length ≤ rounds →
          m.storeWithin search rounds address values = .ok () m') ∧
        (∀ k v, values[k]? = some v → m'.HoldsAt (address.toNatClampNeg + k) v) ∧
        m'.WellFormed) ∨
      largestBlock < pageCells m.pageSize ∧
        ∃ m', m.store address values = .error (.crash .allocation) m' := by
  intro m
  obtain ⟨pages, hBuilt⟩ := Reached.built ⟨pageSize, limit, ops, hMade, rfl⟩
  refine ⟨hBuilt.wellFormed, fun address values hSome hAccepts => ?_⟩
  have hWalk := @walk_or_crash m.pageSize m.limit address pages values hSome hAccepts
  rw [← hBuilt.eq_build] at hWalk
  rcases hWalk with ⟨result, hWalk⟩ | hCrash
  · left
    have hStore := hWalk.store_eq hSome hAccepts
    rw [← hBuilt.eq_build] at hStore
    have hBuilt' : Built (build (effectiveSize m.pageSize) m.limit
        (rebuilt pages address.toNatClampNeg result)) _ := ⟨rfl, hWalk.laid hBuilt.laid⟩
    refine ⟨_, hStore, fun search rounds hSearch hRounds => ?_, fun k v hv => ?_,
      hBuilt'.wellFormed⟩
    · exact hBuilt.storeWithin_eq hSearch hRounds hWalk
    · obtain ⟨p, hp, hCell⟩ := Spread.places hWalk hv
      exact hBuilt'.holdsAt (List.mem_append_right _ hp) hCell
  · exact .inr hCrash

/-- Pages that overlap and are out of order, and a store of small pages that starts in front of them
and ends in the hole behind them. -/
theorem store_places_values_overlapping :
    let ops : List Op :=
      [.store 4 [7, 7, 7, 7], .store 20 [1], .pageSize 16, .store 9 [3], .pageSize 2]
    let m := run { pageSize := 4 } ops
    let values : List Int64 := [1, 2, 3, 4, 5, 6, 7, 8, 9, 10, 11, 12, 13, 14, 15, 16]
    Allocates { pageSize := 4 } ops ∧ m.extents = #[⟨4, 4⟩, ⟨0, 16⟩, ⟨20, 4⟩] ∧
      values ≠ [] ∧ Accepts m.limit 3 values.length ∧
      ∃ m', m.store 3 values = .ok () m' ∧ m'.HoldsAt 3 1 ∧ m'.HoldsAt 18 16 ∧ m'.WellFormed := by
  intro ops m values
  have hMade : Allocates { pageSize := 4 } ops := by decide +kernel
  have hSome : values ≠ [] := List.cons_ne_nil _ _
  have hAccepts : Accepts m.limit 3 values.length := by decide +kernel
  refine ⟨hMade, by decide +kernel, hSome, hAccepts, ?_⟩
  rcases (store_places_values 4 0 ops hMade).2 3 values hSome hAccepts with
    ⟨m', hStore, -, hPlaced, hFormed⟩ | ⟨hLarge, -⟩
  · exact ⟨m', hStore, hPlaced 0 1 rfl, hPlaced 15 16 rfl, hFormed⟩
  · exact absurd hLarge (by decide +kernel)

end HullRobot.Memory
