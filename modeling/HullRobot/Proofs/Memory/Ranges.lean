import HullRobot.Proofs.Memory.Map

/-!
# Loading ranges

A load into a buffer walks the pages from the one that the search finds, copies what they have of
the range, and puts 0 where there is no page.  So it gives what loads of the single cells give, and
what the buffer held before does not matter.

* `Shows f origin filled buffer`: the first cells of a buffer are those of `f` from `origin` on.
* `Shows.page`: a page that is copied adds to them what the range has up to its end.
* `copyPages_shows`: **the walk copies all cells up to a place from which on they are 0.**
* `loadInto_build`: a load into a buffer as a whole, on ordered pages.
* `accepts_iff_cells`: a range may be touched if each of its cells may be.
* `loadInto_agrees`: **a load into a buffer agrees with the loads of the single cells.**
-/

namespace HullRobot.Memory

/-! ### Buffers -/

/-- The first `filled` cells of the buffer are those of the addresses from `origin` on. -/
def Shows (f : Nat → Int64) (origin filled : Nat) (buffer : Array Int64) : Prop :=
  ∀ i < filled, buffer[i]? = some (f (origin + i))

section

variable {f : Nat → Int64} {origin filled : Nat} {buffer : Array Int64}

theorem Shows.write (h : Shows f origin filled buffer) {values : List Int64}
    (hRoom : filled + values.length ≤ buffer.size)
    (hValues : ∀ k < values.length, values[k]? = some (f (origin + filled + k))) :
    Shows f origin (filled + values.length) (overwrite buffer filled values) := by
  intro i hi
  rw [getElem?_overwrite]
  by_cases hNew : filled ≤ i
  · rw [if_pos ⟨hNew, hi, by omega⟩, hValues (i - filled) (by omega),
      show origin + filled + (i - filled) = origin + i by omega]
  · rw [if_neg (by omega)]
    exact h i (by omega)

/-- Zeros are right where all cells are 0. -/
theorem Shows.blank (h : Shows f origin filled buffer) {next : Nat} (hLe : filled ≤ next)
    (hRoom : next ≤ buffer.size) (hZero : ∀ i, filled ≤ i → i < next → f (origin + i) = 0) :
    Shows f origin next (overwrite buffer filled (List.replicate (next - filled) 0)) := by
  have hLength : (List.replicate (next - filled) (0 : Int64)).length = next - filled :=
    List.length_replicate
  have hValues : ∀ k < (List.replicate (next - filled) (0 : Int64)).length,
      (List.replicate (next - filled) 0)[k]? = some (f (origin + filled + k)) := fun k hk => by
    rw [hLength] at hk
    rw [List.getElem?_replicate, if_pos hk, Nat.add_assoc, hZero (filled + k) (by omega) (by omega)]
  have hShows := h.write (by rw [hLength]; omega) hValues
  rw [hLength, Nat.add_sub_cancel' hLe] at hShows
  exact hShows

/-- Nothing is left of what a buffer held before all of it was written. -/
theorem Shows.eq_ofFn {size : Nat} (h : Shows f origin size buffer) (hSize : buffer.size = size) :
    buffer = Array.ofFn fun i : Fin size => f (origin + i) := by
  refine Array.ext_getElem? fun i => ?_
  by_cases hi : i < size
  · rw [h i hi, Array.getElem?_ofFn, dif_pos hi]
  · rw [Array.getElem?_eq_none (by omega), Array.getElem?_ofFn, dif_neg hi]

end

/-! ### Copying pages -/

/-- The cells of a page between two addresses. -/
def Page.between (p : Page) (start stop : Nat) : List Int64 :=
  (p.cells.extract (start - p.base) (stop - p.base)).toList

theorem Page.length_between (p : Page) {start : Nat} (hBase : p.base ≤ start) (stop : Nat) :
    (p.between start stop).length = min stop p.stop - start := by
  simp only [between, Array.length_toList, Array.size_extract, Page.stop]
  omega

theorem Page.getElem?_between (p : Page) {start stop k : Nat} (hBase : p.base ≤ start)
    (hk : k < (p.between start stop).length) :
    (p.between start stop)[k]? = p.cell? (start + k) := by
  rw [length_between p hBase, Page.stop] at hk
  rw [between, Array.getElem?_toList, Array.getElem?_extract, if_pos (by omega),
    Page.cell?_of_le (by omega), show start - p.base + k = start + k - p.base by omega]

theorem Ordered.cellOf_before {p : Page} {rest : List Page} (hLaid : Laid (p :: rest))
    (hOrder : Ordered (p :: rest)) {a : Nat} (ha : a < p.base) : cellOf (p :: rest) a = 0 := by
  have hBehind : ∀ q ∈ p :: rest, p.base ≤ q.base :=
    hOrder.next_le hLaid fun base hMem => Nat.le_of_eq (Option.some.inj hMem)
  exact cellOf_eq_zero fun q hq => Or.inl (Nat.lt_of_lt_of_le ha (hBehind q hq))

section

variable {f : Nat → Int64} {origin filled : Nat} {buffer : Array Int64}

/-- What one page adds: the zeros in front of it, and its own cells. -/
theorem Shows.page (h : Shows f origin filled buffer) {p : Page} {rest : List Page} {start : Nat}
    (hStart : start = max (origin + filled) p.base) (hOpen : start < origin + buffer.size)
    (hLaid : Laid (p :: rest)) (hOrder : Ordered (p :: rest))
    (hRest : ∀ i, filled ≤ i → i < buffer.size → f (origin + i) = cellOf (p :: rest) (origin + i)) :
    Shows f origin (start - origin + (p.between start (origin + buffer.size)).length)
      (overwrite (overwrite buffer filled (List.replicate (start - (origin + filled)) 0))
        (start - origin) (p.between start (origin + buffer.size))) := by
  have hBlank := h.blank (show filled ≤ start - origin by omega) (by omega) fun i hLow hHigh => by
    rw [hRest i hLow (by omega), hOrder.cellOf_before hLaid (by omega)]
  rw [Nat.sub_sub] at hBlank
  have hLength := p.length_between (show p.base ≤ start by omega) (origin + buffer.size)
  refine hBlank.write (by rw [size_overwrite]; omega) fun k hk => ?_
  have hCell : (p.cell? (start + k)).isSome := Page.cell?_isSome (by omega) (by omega)
  obtain ⟨v, hv⟩ := Option.isSome_iff_exists.mp hCell
  rw [p.getElem?_between (by omega) hk, hv, Nat.add_sub_cancel' (by omega),
    show start + k = origin + (start - origin + k) by omega, hRest _ (by omega) (by omega),
    show origin + (start - origin + k) = start + k by omega, cellOf_cons, hv, Option.getD_some]

theorem copyPages_cons {blocks : Array (Array Int64)} {p : Page} {page : Nat}
    (hBlock : blocks[page]? = some p.cells) (rest : List Page) {start : Nat}
    (hStart : start = max (origin + filled) p.base) :
    copyPages blocks origin ((p :: rest).map Page.extent) page filled buffer =
      if origin + buffer.size ≤ origin + filled ∨ origin + buffer.size ≤ p.base then
        .ok filled buffer
      else
        copyPages blocks origin (rest.map Page.extent) (page + 1)
          (start - origin + (p.between start (origin + buffer.size)).length)
          (overwrite (overwrite buffer filled (List.replicate (start - (origin + filled)) 0))
            (start - origin) (p.between start (origin + buffer.size))) := by
  subst hStart
  rw [List.map_cons, copyPages, hBlock]
  rfl

/-- **The walk copies all cells up to a place from which on they are 0.** -/
theorem copyPages_shows {blocks : Array (Array Int64)} {pages : List Page} {page : Nat}
    (hBlocks : ∀ i p, pages[i]? = some p → blocks[page + i]? = some p.cells)
    (hLaid : Laid pages) (hOrder : Ordered pages) (h : Shows f origin filled buffer)
    (hFilled : filled ≤ buffer.size)
    (hRest : ∀ i, filled ≤ i → i < buffer.size → f (origin + i) = cellOf pages (origin + i)) :
    ∃ filled' buffer', copyPages blocks origin (pages.map Page.extent) page filled buffer =
        .ok filled' buffer' ∧
      buffer'.size = buffer.size ∧ filled' ≤ buffer.size ∧ Shows f origin filled' buffer' ∧
      ∀ i, filled' ≤ i → i < buffer.size → f (origin + i) = 0 := by
  induction pages generalizing page filled buffer with
  | nil => exact ⟨filled, buffer, rfl, rfl, hFilled, h, hRest⟩
  | cons p rest ih =>
    obtain ⟨start, hStart⟩ : ∃ start, start = max (origin + filled) p.base := ⟨_, rfl⟩
    have hBlock : blocks[page]? = some p.cells := hBlocks 0 p rfl
    rw [copyPages_cons hBlock rest hStart]
    by_cases hDone : origin + buffer.size ≤ origin + filled ∨ origin + buffer.size ≤ p.base
    · rw [if_pos hDone]
      refine ⟨filled, buffer, rfl, rfl, hFilled, h, fun i hLow hHigh => ?_⟩
      rw [hRest i hLow hHigh, hOrder.cellOf_before hLaid (by omega)]
    · rw [if_neg hDone]
      have hLength := p.length_between (show p.base ≤ start by omega) (origin + buffer.size)
      have hNext : ∀ i q, rest[i]? = some q → blocks[page + 1 + i]? = some q.cells :=
        fun i q hq => by
          rw [Nat.add_assoc, Nat.add_comm 1 i]
          exact hBlocks (i + 1) q hq
      have hStep := ih hNext (List.forall_mem_cons.mp hLaid).2 (List.pairwise_cons.mp hOrder).2
        (h.page hStart (by omega) hLaid hOrder hRest)
      rw [size_overwrite, size_overwrite] at hStep
      refine hStep (by omega) fun i hLow hHigh => ?_
      -- The page has no cell behind what was copied, unless the buffer ends there.
      rw [hRest i (by omega) hHigh, cellOf_cons, Page.cell?_eq_none (Or.inr (by omega)),
        Option.getD_none]

end

/-! ### Loads into a buffer -/

theorem cellOf_drop_found {pages : List Page} (hOrder : Ordered pages) {a b : Nat} (h : a ≤ b) :
    cellOf (pages.drop (found pages a)) b = cellOf pages b := by
  conv_rhs => rw [← List.take_append_drop (found pages a) pages]
  rw [cellOf_append, hOrder.findSome?_front h, Option.getD_none]

/-- **A load into a buffer gives the cells of its range**, or the fault of the range. -/
theorem loadInto_build (pageSize limit address : Int64) {pages : List Page} (hLaid : Laid pages)
    (hOrder : Ordered pages) {buffer : Array Int64} (hSome : 0 < buffer.size) :
    (build pageSize limit pages).loadInto address buffer =
      match checkRange limit .load address buffer.size with
      | .error fault => .error (.fault fault) buffer
      | .ok () => .ok () (Array.ofFn fun i : Fin buffer.size =>
          cellOf pages (address.toNatClampNeg + i)) := by
  have hEmpty : buffer.isEmpty = false := by simpa [Array.isEmpty] using Nat.ne_of_gt hSome
  rw [loadInto, hEmpty, if_neg Bool.false_ne_true]
  simp only [build]
  cases checkRange limit .load address buffer.size with
  | error fault => rfl
  | ok u =>
    simp only
    rw [← found, ← List.map_drop]
    have hBlocks : ∀ i p, (pages.drop (found pages address.toNatClampNeg))[i]? = some p →
        (pages.map Page.cells).toArray[found pages address.toNatClampNeg + i]? = some p.cells :=
      fun i p hp => by
        rw [List.getElem?_drop] at hp
        rw [List.getElem?_toArray, List.getElem?_map, hp, Option.map_some]
    have hNone : Shows (cellOf pages) address.toNatClampNeg 0 buffer :=
      fun i hi => absurd hi (Nat.not_lt_zero i)
    obtain ⟨filled, copied, hCopy, hSize, hFilled, hShows, hZero⟩ :=
      copyPages_shows hBlocks (fun p hp => hLaid p (List.mem_of_mem_drop hp))
        (hOrder.sublist (List.drop_sublist _ _)) hNone (Nat.zero_le buffer.size)
        fun i _ _ => (cellOf_drop_found hOrder (Nat.le_add_right _ i)).symm
    rw [hCopy]
    simp only
    have hAll := hShows.blank hFilled (Nat.le_of_eq hSize.symm) hZero
    rw [hSize, hAll.eq_ofFn (by rw [size_overwrite, hSize])]

/-- A range may be touched exactly if each of its cells may be. -/
theorem accepts_iff_cells {limit address : Int64} {count : Nat} (hCount : 0 < count) :
    Accepts limit address count ↔
      ∀ k < count, ∃ a : Int64, a.toInt = address.toInt + k ∧ Accepts limit a 1 := by
  have hStop : addressStop = 9223372036854775807 := rfl
  constructor
  · rintro ⟨hLow, hTop, hLimit⟩ k hk
    have hInt : (Int64.ofInt (address.toInt + k)).toInt = address.toInt + k :=
      Int64.toInt_ofInt_of_le (by omega) (by omega)
    refine ⟨_, hInt, ?_⟩
    rw [Accepts, hInt]
    exact ⟨by omega, by omega, hLimit.imp_right fun hBelow => by omega⟩
  · intro h
    obtain ⟨a, ha, hFirst⟩ := h 0 hCount
    obtain ⟨b, hb, hLast⟩ := h (count - 1) (by omega)
    obtain ⟨-, hTop, hLimit⟩ := hLast
    have := hFirst.1
    exact ⟨by omega, by omega, hLimit.imp_right fun hBelow => by omega⟩

section Represents

variable {size : Nat} {m : Memory} {f : FlatMemory} {pages : List Page} {address : Int64}
  {buffer buffer' : Array Int64}

theorem Represents.loadInto_ok_iff (h : Represents size m f pages) (hSome : 0 < buffer.size) :
    m.loadInto address buffer = .ok () buffer' ↔
      Accepts m.limit address buffer.size ∧
        buffer' = Array.ofFn fun i : Fin buffer.size =>
          cellOf pages (address.toNatClampNeg + i) := by
  rw [h.eq_build, loadInto_build _ _ _ h.laid h.ordered hSome]
  simp only [build]
  rw [← @checkRange_ok_iff m.limit address .load]
  cases checkRange m.limit .load address buffer.size <;> simp [eq_comm]

theorem Represents.loadInto_error (h : Represents size m f pages) (hSome : 0 < buffer.size)
    {e : Error} (hError : m.loadInto address buffer = .error e buffer') : buffer' = buffer := by
  rw [h.eq_build, loadInto_build _ _ _ h.laid h.ordered hSome] at hError
  cases hCheck : checkRange m.limit .load address buffer.size with
  | error fault =>
    rw [hCheck] at hError
    cases hError
    rfl
  | ok u =>
    rw [hCheck] at hError
    cases hError

theorem Represents.load_shift (h : Represents size m f pages) {a : Int64} {k : Nat}
    (hAddress : 0 ≤ address.toInt) (ha : a.toInt = address.toInt + k)
    (hAccepts : Accepts m.limit a 1) :
    m.load a = .ok (cellOf pages (address.toNatClampNeg + k)) := by
  have hNat := toNat_eq_toInt hAddress
  have hNat' := toNat_eq_toInt hAccepts.1
  refine h.load_ok_iff.mpr ⟨hAccepts, ?_⟩
  rw [h.cells_eq a hAccepts.1, show a.toNatClampNeg = address.toNatClampNeg + k by omega]

end Represents

/-- **A load into a buffer agrees with the loads of the single cells.**  After any history under one
page size it succeeds exactly if all of them do, and then leaves what they give, whatever the buffer
held; if it fails the buffer is as before.  The memory is not part of the result of either. -/
theorem loadInto_agrees (pageSize limit : Int64) (ops : List Op)
    (hFixed : ∀ n, Op.pageSize n ∉ ops) (hMade : Allocates { pageSize, limit } ops) :
    let m := run { pageSize, limit } ops
    ∀ (address : Int64) (buffer : Array Int64), 0 < buffer.size →
      ((∃ buffer', m.loadInto address buffer = .ok () buffer') ↔
        ∀ k < buffer.size, ∃ a v : Int64, a.toInt = address.toInt + k ∧ m.load a = .ok v) ∧
      (∀ buffer', m.loadInto address buffer = .ok () buffer' →
        buffer'.size = buffer.size ∧ ∀ k < buffer.size, ∃ a v : Int64,
          a.toInt = address.toInt + k ∧ m.load a = .ok v ∧ buffer'[k]? = some v) ∧
      ∀ e buffer', m.loadInto address buffer = .error e buffer' → buffer' = buffer := by
  intro m address buffer hSome
  obtain ⟨pages, h⟩ := run_represents (Represents.empty pageSize limit) hFixed hMade
  refine ⟨?_, fun buffer' hLoad => ?_, fun e buffer' => h.loadInto_error hSome⟩
  · have hOk : (∃ buffer', m.loadInto address buffer = .ok () buffer') ↔
        Accepts m.limit address buffer.size :=
      ⟨fun ⟨_, hLoad⟩ => ((h.loadInto_ok_iff hSome).mp hLoad).1,
        fun hAccepts => ⟨_, (h.loadInto_ok_iff hSome).mpr ⟨hAccepts, rfl⟩⟩⟩
    rw [hOk, accepts_iff_cells hSome]
    constructor
    · intro hCells k hk
      obtain ⟨a, ha, hAccepts⟩ := hCells k hk
      exact ⟨a, _, ha, h.load_ok_iff.mpr ⟨hAccepts, rfl⟩⟩
    · intro hLoads k hk
      obtain ⟨a, v, ha, hLoad⟩ := hLoads k hk
      exact ⟨a, ha, (h.load_ok_iff.mp hLoad).1⟩
  · obtain ⟨hAccepts, rfl⟩ := (h.loadInto_ok_iff hSome).mp hLoad
    refine ⟨Array.size_ofFn, fun k hk => ?_⟩
    obtain ⟨a, ha, hCell⟩ := (accepts_iff_cells hSome).mp hAccepts k hk
    refine ⟨a, _, ha, h.load_shift hAccepts.1 ha hCell, ?_⟩
    rw [Array.getElem?_ofFn, dif_pos hk]

/-- A range that starts in a hole, goes over a page, another hole and the next page, and ends behind
it, into a buffer full of nines. -/
theorem loadInto_agrees_holes :
    let ops : List Op := [.store 13 [4, 5], .store 5 [1, 2, 3]]
    let m := run { pageSize := 4 } ops
    Allocates { pageSize := 4 } ops ∧
      m.loadInto 2 (Array.replicate 18 9) =
        .ok () #[0, 0, 0, 1, 2, 3, 0, 0, 0, 0, 0, 4, 5, 0, 0, 0, 0, 0] ∧
      ∃ a v : Int64, a.toInt = 2 + 12 ∧ m.load a = .ok v ∧ v = 5 := by
  intro ops m
  have hFixed : ∀ n, Op.pageSize n ∉ ops := by simp [ops]
  have hMade : Allocates { pageSize := 4 } ops :=
    (Represents.empty 4 0).allocates hFixed (by decide)
  have hPages : m = { pageSize := 4, extents := #[⟨4, 4⟩, ⟨12, 4⟩],
                      blocks := #[#[0, 1, 2, 3], #[0, 4, 5, 0]] } := by decide +kernel
  have hLoad : m.loadInto 2 (Array.replicate 18 9) =
      .ok () #[0, 0, 0, 1, 2, 3, 0, 0, 0, 0, 0, 4, 5, 0, 0, 0, 0, 0] := by
    rw [hPages]
    with_unfolding_all rfl
  have hAgrees := (loadInto_agrees 4 0 ops hFixed hMade 2 (Array.replicate 18 9) (by decide)).2.1
  obtain ⟨a, v, ha, hCell, hAt⟩ := (hAgrees _ hLoad).2 12 (by decide)
  exact ⟨hMade, hLoad, a, v, ha, hCell, (Option.some.inj hAt).symm⟩

end HullRobot.Memory
