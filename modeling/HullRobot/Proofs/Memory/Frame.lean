import HullRobot.Proofs.Memory.Holes
import HullRobot.Proofs.Memory.Map

/-!
# Which stores disturb no other cell

A store should change the cells of its range and no other cell.  When the page size has changed, it
may do more: a page that is made in a hole may start before the hole and take the place of cells in
front of it.  Whether this can happen is told by the directory:

* `Safe m address count`: a store of `count` values at `address` disturbs no other cell, whatever
  values are stored and whatever the cells of a memory with the pages of `m` hold.
* `Clear m address count`: such a store is clear of all holes of `m`.
* `stores_safe_iff_clear`: **the stores of a history are all safe exactly if they are all clear.**
-/

namespace HullRobot.Memory

/-! ### Histories of stores -/

/-- The values can be loaded from where they were stored, and every other load is as before. -/
structure Framed (m : Memory) (address : Int64) (values : List Int64) (m' : Memory) : Prop where
  inside : ∀ a v, address ≤ a → values[(a.toInt - address.toInt).toNat]? = some v →
    m'.load a = .ok v
  outside : ∀ a, a < address ∨ address.toInt + values.length ≤ a.toInt → m'.load a = m.load a

/-- The memory is what a history has left of an empty memory. -/
def Reached (m : Memory) : Prop :=
  ∃ pageSize limit ops, Allocates { pageSize, limit } ops ∧ m = run { pageSize, limit } ops

/-- The pages lie at the same places, and the same pages would be made. -/
structure SameLayout (m m₁ : Memory) : Prop where
  extents_eq : m₁.extents = m.extents
  size_eq : pageCells m₁.pageSize = pageCells m.pageSize
  limit_eq : m₁.limit = m.limit

/-- A store of `count` values disturbs no other cell, whatever is stored and whatever the cells
hold. -/
def Safe (m : Memory) (address : Int64) (count : Nat) : Prop :=
  ∀ m₁ values m', Reached m₁ → SameLayout m m₁ → values.length = count →
    m₁.store address values = .ok () m' → Framed m₁ address values m'

/-- A store of `count` values is refused, or it is clear of all holes. -/
def Clear (m : Memory) (address : Int64) (count : Nat) : Prop :=
  Accepts m.limit address count → m.extents.toList.IsChain
    (ClearOf (pageCells m.pageSize) address.toNatClampNeg (address.toNatClampNeg + count))

instance (m : Memory) (address : Int64) (count : Nat) : Decidable (Clear m address count) :=
  inferInstanceAs (Decidable (_ → _))

/-- If the operation is a store, it is one that `P` allows. -/
def Op.Meets (P : Memory → Int64 → Nat → Prop) (m : Memory) : Op → Prop
  | .store address values => P m address values.length
  | _ => True

/-- `P` allows every store of a history, at the time when it is made. -/
def EveryStore (P : Memory → Int64 → Nat → Prop) (m : Memory) : List Op → Prop
  | [] => True
  | op :: rest => op.Meets P m ∧ EveryStore P (leaves (m.perform op)) rest

instance (P : Memory → Int64 → Nat → Prop) [∀ m address count, Decidable (P m address count)]
    (m : Memory) : ∀ op, Decidable (Op.Meets P m op)
  | .store address values => inferInstanceAs (Decidable (P m address values.length))
  | .reset | .limit _ | .pageSize _ => inferInstanceAs (Decidable True)

instance instDecidableEveryStore (P : Memory → Int64 → Nat → Prop)
    [∀ m address count, Decidable (P m address count)] :
    ∀ (m : Memory) (ops : List Op), Decidable (EveryStore P m ops)
  | _, [] => inferInstanceAs (Decidable True)
  | m, op :: rest =>
    have : Decidable (EveryStore P (leaves (m.perform op)) rest) := instDecidableEveryStore P _ rest
    inferInstanceAs (Decidable (_ ∧ _))

/-! ### Pages of reached memories -/

structure Built (m : Memory) (pages : List Page) : Prop where
  eq_build : m = build m.pageSize m.limit pages
  laid : Laid pages

section Built

variable {m : Memory} {pages : List Page}

theorem Built.walk (h : Built m pages) {address : Int64} {values : List Int64}
    (hSome : values ≠ []) (hAccepts : Accepts m.limit address values.length)
    (hMade : madePages (m.store address values) = true) :
    ∃ result, Walk (pageCells m.pageSize) pages address.toNatClampNeg values result := by
  have hWalk := @walk_or_crash m.pageSize m.limit address pages values hSome hAccepts
  rw [← h.eq_build] at hWalk
  rcases hWalk with hWalk | ⟨_, m', hCrash⟩
  · exact hWalk
  · rw [hCrash] at hMade
    cases hMade

/-- A store has no values, or it is refused, or it makes its walk. -/
theorem Built.store_cases (h : Built m pages) {address : Int64} {values : List Int64}
    (hMade : madePages (m.store address values) = true) :
    values = [] ∨ (∃ fault, m.store address values = .error (.fault fault) m) ∨
    values ≠ [] ∧ Accepts m.limit address values.length ∧
      ∃ result, Walk (pageCells m.pageSize) pages address.toNatClampNeg values result ∧
        m.store address values = .ok () (build (effectiveSize m.pageSize) m.limit
          (rebuilt pages address.toNatClampNeg result)) := by
  by_cases hSome : values = []
  · exact Or.inl hSome
  refine Or.inr ?_
  by_cases hAccepts : Accepts m.limit address values.length
  · obtain ⟨result, hWalk⟩ := h.walk hSome hAccepts hMade
    have hStore := hWalk.store_eq hSome hAccepts
    rw [← h.eq_build] at hStore
    exact Or.inr ⟨hSome, hAccepts, result, hWalk, hStore⟩
  · exact Or.inl (store_fault hSome hAccepts)

/-- What an operation can do to the pages. -/
theorem Built.perform (h : Built m pages) {op : Op} (hMade : madePages (m.perform op) = true) :
    Built (leaves (m.perform op)) pages ∨ Built (leaves (m.perform op)) [] ∨
    ∃ address values result, op = .store address values ∧
      Accepts m.limit address values.length ∧
      Walk (pageCells m.pageSize) pages address.toNatClampNeg values result ∧
      Built (leaves (m.perform op)) (rebuilt pages address.toNatClampNeg result) := by
  cases op with
  | store address values =>
    simp only [Memory.perform] at hMade ⊢
    rcases h.store_cases hMade with rfl | ⟨fault, hStore⟩ | ⟨_, hAccepts, result, hWalk, hStore⟩
    · exact Or.inl h
    · rw [hStore]
      exact Or.inl h
    · refine Or.inr (Or.inr ⟨address, values, result, rfl, hAccepts, hWalk, ?_⟩)
      rw [hStore]
      exact ⟨rfl, hWalk.laid h.laid⟩
  | reset => exact Or.inr (Or.inl ⟨rfl, by simp [Laid]⟩)
  | limit limit =>
    refine Or.inl ⟨?_, h.laid⟩
    simp only [Memory.perform, leaves]
    rw [h.eq_build]
    rfl
  | pageSize size =>
    refine Or.inl ⟨?_, h.laid⟩
    simp only [Memory.perform, leaves]
    rw [h.eq_build]
    rfl

theorem Built.run (h : Built m pages) {ops : List Op} (hMade : Allocates m ops) :
    ∃ pages', Built (m.run ops) pages' := by
  induction ops generalizing m pages with
  | nil => exact ⟨pages, h⟩
  | cons op rest ih =>
    rcases h.perform hMade.1 with hSame | hReset | ⟨_, _, _, _, _, _, hWalked⟩
    · exact ih hSame hMade.2
    · exact ih hReset hMade.2
    · exact ih hWalked hMade.2

theorem Reached.built (h : Reached m) : ∃ pages, Built m pages := by
  obtain ⟨pageSize, limit, ops, hMade, rfl⟩ := h
  have hEmpty : Built { pageSize, limit } [] := ⟨rfl, by simp [Laid]⟩
  exact hEmpty.run hMade

theorem Built.extents_toList (h : Built m pages) : m.extents.toList = pages.map Page.extent := by
  rw [h.eq_build, build]

end Built

theorem ordered_iff_extents {pages : List Page} :
    Ordered pages ↔ (pages.map Page.extent).Pairwise fun e e' => e.stop ≤ e'.base := by
  rw [List.pairwise_map]
  rfl

theorem Ordered.of_extents {pages pages' : List Page} (hOrder : Ordered pages)
    (hExtents : pages'.map Page.extent = pages.map Page.extent) : Ordered pages' := by
  rw [ordered_iff_extents, hExtents, ← ordered_iff_extents]
  exact hOrder

/-! ### Clear stores -/

section Framed

variable {pageSize limit address : Int64} {pages result : List Page} {values : List Int64}

/-- **A clear store on ordered pages disturbs no other cell.** -/
theorem Walk.framed (hAccepts : Accepts limit address values.length) (hLaid : Laid pages)
    (hOrder : Ordered pages)
    (hClear : (pages.map Page.extent).IsChain (ClearOf (pageCells pageSize)
      address.toNatClampNeg (address.toNatClampNeg + values.length)))
    (h : Walk (pageCells pageSize) pages address.toNatClampNeg values result) :
    Framed (build pageSize limit pages) address values
      (build (effectiveSize pageSize) limit (rebuilt pages address.toNatClampNeg result)) := by
  have hNat := toNat_eq_toInt hAccepts.1
  have hFound : ∀ a, foundCell (rebuilt pages address.toNatClampNeg result) a =
      overlay address.toNatClampNeg values (cellOf pages) a := fun a => by
    rw [found_eq_cellOf (h.ordered (pageCells_pos _) hLaid hOrder hClear),
      h.cellOf_eq hLaid hOrder]
  constructor
  · intro a v hLe hValue
    rw [Int64.le_iff_toInt_le] at hLe
    have hNat' := toNat_eq_toInt (Int.le_trans hAccepts.1 hLe)
    obtain ⟨hLt, _⟩ := List.getElem?_eq_some_iff.mp hValue
    have hCheck : checkRange limit .load a 1 = .ok () := by
      rw [checkRange_ok_iff]
      obtain ⟨hPos, hTop, hLimit⟩ := hAccepts
      refine ⟨by omega, by omega, hLimit.imp_right fun hLimit => by omega⟩
    rw [load_build, hCheck]
    simp only
    rw [hFound, overlay_of_le (by omega),
      show a.toNatClampNeg - address.toNatClampNeg = (a.toInt - address.toInt).toNat by omega,
      hValue, Option.getD_some]
  · intro a hOut
    rw [load_build, load_build]
    cases hCheck : checkRange limit .load a 1 with
    | error f => rfl
    | ok u =>
      have hNat' := toNat_eq_toInt (checkRange_ok_iff.mp hCheck).1
      simp only
      rw [hFound, found_eq_cellOf hOrder]
      rcases hOut with hLow | hHigh
      · rw [Int64.lt_iff_toInt_lt] at hLow
        rw [overlay_of_lt (by omega)]
      · rw [overlay_of_length_le (by omega)]

end Framed

theorem framed_nil (m : Memory) (address : Int64) : Framed m address [] m :=
  ⟨fun _ _ _ h => by simp at h, fun _ _ => rfl⟩

theorem safe_of_clear {m : Memory} {pages : List Page} (h : Built m pages) (hOrder : Ordered pages)
    {address : Int64} {count : Nat} (hClear : Clear m address count) : Safe m address count := by
  rintro m₁ values m' hReached hSame rfl hStore
  obtain ⟨pages₁, h₁⟩ := hReached.built
  have hExtents : pages₁.map Page.extent = pages.map Page.extent := by
    rw [← h₁.extents_toList, hSame.extents_eq, h.extents_toList]
  rcases h₁.store_cases (by rw [hStore]; rfl) with
    rfl | ⟨fault, hFault⟩ | ⟨hSome, hAccepts, result, hWalk, hWalked⟩
  · cases hStore
    exact framed_nil m₁ address
  · rw [hFault] at hStore
    cases hStore
  · rw [hWalked] at hStore
    cases hStore
    have hClear₁ := hClear (hSame.limit_eq ▸ hAccepts)
    rw [h.extents_toList, ← hExtents, ← hSame.size_eq] at hClear₁
    have hFramed := hWalk.framed hAccepts h₁.laid (hOrder.of_extents hExtents) hClear₁
    rw [← h₁.eq_build] at hFramed
    exact hFramed

/-! ### Stores that are not clear -/

/-- A store of one value into a page that is there. -/
theorem walk_into {size x : Nat} {front rest : List Page} {p : Page}
    (hOrder : Ordered (front ++ p :: rest)) (hBase : p.base ≤ x) (hStop : x < p.stop) (v : Int64) :
    Walk size (front ++ p :: rest) x [v] (p.write x [v] :: rest) ∧
      rebuilt (front ++ p :: rest) x (p.write x [v] :: rest) = front ++ p.write x [v] :: rest := by
  have hFound : found (front ++ p :: rest) x = front.length :=
    eq_found_of_holds hOrder (by simp) hBase hStop
  have hRoom : p.room x [v] = 1 :=
    Nat.le_antisymm (p.room_le_length x [v])
      (Page.room_pos hBase hStop (List.cons_ne_nil v []))
  unfold Walk rebuilt
  rw [hFound, List.take_left' rfl, List.drop_left' rfl]
  refine ⟨.held (List.cons_ne_nil v []) hBase hStop ?_, rfl⟩
  rw [hRoom]
  exact .done _ _ _

theorem Reached.perform {m : Memory} (h : Reached m) {op : Op}
    (hMade : madePages (m.perform op) = true) : Reached (leaves (m.perform op)) := by
  obtain ⟨pageSize, limit, ops, hOps, rfl⟩ := h
  exact ⟨pageSize, limit, ops ++ [op], allocates_append.mpr ⟨hOps, hMade, trivial⟩,
    (run_append _ ops [op]).symm⟩

theorem Reached.store {m m' : Memory} (h : Reached m) {address : Int64} {values : List Int64}
    (hStore : m.store address values = .ok () m') : Reached m' := by
  have hPerform : m.perform (.store address values) = .ok () m' := hStore
  have hNext := h.perform (show madePages (m.perform (.store address values)) = true by
    rw [hPerform]; rfl)
  rw [hPerform] at hNext
  exact hNext

section Unclear

variable {m : Memory} {front rest : List Page} {p p' : Page} {address a : Int64}
  {values : List Int64}

/-- Every cell of a page can hold any value. -/
theorem Built.touch (h : Built m (front ++ p :: rest)) (hOrder : Ordered (front ++ p :: rest))
    (hReached : Reached m) (hAccepts : Accepts m.limit a 1) (hBase : p.base ≤ a.toNatClampNeg)
    (hStop : a.toNatClampNeg < p.stop) (v : Int64) :
    ∃ m₁, Reached m₁ ∧ SameLayout m m₁ ∧
      Built m₁ (front ++ p.write a.toNatClampNeg [v] :: rest) ∧ m₁.load a = .ok v := by
  obtain ⟨hWalk, hRebuilt⟩ := @walk_into (pageCells m.pageSize) _ _ _ _ hOrder hBase hStop v
  have hStore := hWalk.store_eq (List.cons_ne_nil v []) hAccepts
  have hLaid := hWalk.laid h.laid
  have hExtents : (front ++ p.write a.toNatClampNeg [v] :: rest).map Page.extent =
      (front ++ p :: rest).map Page.extent := by simp
  have hOrder₁ := hOrder.of_extents hExtents
  have hCell := hWalk.cellOf_eq h.laid hOrder a.toNatClampNeg
  rw [hRebuilt] at hStore hLaid hCell
  rw [← h.eq_build] at hStore
  refine ⟨_, hReached.store hStore, ⟨?_, pageCells_effectiveSize _, rfl⟩, ⟨rfl, hLaid⟩, ?_⟩
  · rw [h.eq_build, build, build, hExtents]
  · rw [load_build, checkRange_ok_iff.mpr hAccepts]
    simp only
    rw [found_eq_cellOf hOrder₁, hCell, overlay_of_le (Nat.le_refl _), Nat.sub_self]
    rfl

/-- A store into a hole that it is not clear of makes the cell in front of the hole read 0. -/
theorem Built.forget (h : Built m (front ++ p :: p' :: rest))
    (hOrder : Ordered (front ++ p :: p' :: rest)) (hAccepts : Accepts m.limit address values.length)
    (hOpen : max address.toNatClampNeg p.stop <
      min (address.toNatClampNeg + values.length) p'.base)
    (hLow : max address.toNatClampNeg p.stop / pageCells m.pageSize * pageCells m.pageSize < p.stop)
    {result : List Page} (hWalk : Walk (pageCells m.pageSize) (front ++ p :: p' :: rest)
      address.toNatClampNeg values result)
    (hLoad : Accepts m.limit a 1) (ha : a.toNatClampNeg = p.stop - 1) :
    ∃ m', m.store address values = .ok () m' ∧ m'.load a = .ok 0 := by
  have hSome : values ≠ [] := List.ne_nil_of_length_pos (by omega)
  have hStore := hWalk.store_eq hSome hAccepts
  rw [← h.eq_build] at hStore
  refine ⟨_, hStore, ?_⟩
  rw [load_build, checkRange_ok_iff.mpr hLoad]
  simp only
  rw [ha, hWalk.foundCell_eq_zero rfl h.laid hOrder hOpen hLow]

/-- **A store that is safe is clear**: else there is a value that it would lose. -/
theorem clear_of_safe {pages : List Page} (h : Built m pages) (hOrder : Ordered pages)
    (hReached : Reached m) (hMade : madePages (m.store address values) = true)
    (hSafe : Safe m address values.length) : Clear m address values.length := by
  intro hAccepts
  by_contra hUnclear
  rw [h.extents_toList, List.isChain_map, List.isChain_iff_forall_rel_of_append_cons_cons]
    at hUnclear
  push Not at hUnclear
  obtain ⟨p, p', front, rest, rfl, hNot⟩ := hUnclear
  obtain ⟨hOpen, hLow⟩ := Classical.not_imp.mp hNot
  simp only [Page.extent_stop, Page.extent_base, Nat.not_le] at hOpen hLow
  have hNat := toNat_eq_toInt hAccepts.1
  obtain ⟨hPage, hPageTop⟩ := h.laid p (by simp)
  have hSmall : p.stop - 1 < 2 ^ 63 := by simp only [addressStop] at hPageTop; omega
  obtain ⟨a, ha, haInt⟩ :
      ∃ a : Int64, a.toNatClampNeg = p.stop - 1 ∧ a.toInt = (p.stop - 1 : Nat) :=
    ⟨Int64.ofNat (p.stop - 1), Int64.toNatClampNeg_ofNat_of_lt hSmall,
      Int64.toInt_ofNat_of_lt hSmall⟩
  have hLoad : Accepts m.limit a 1 :=
    ⟨by omega, by omega, hAccepts.2.2.imp_right fun hLimit => by omega⟩
  -- The memory in which the cell in front of the hole holds 1, and a store of ones into the hole.
  obtain ⟨m₁, hReached₁, hSame, h₁, hOne⟩ :=
    h.touch hOrder hReached hLoad (by omega) (by omega) 1
  obtain ⟨ones, hLength, hOnes⟩ : ∃ ones : List Int64, ones.length = values.length ∧
      ∀ i < values.length, ones[i]? = some 1 :=
    ⟨List.replicate values.length 1, List.length_replicate, fun i hi => by simp [hi]⟩
  have hExtents : (front ++ p.write a.toNatClampNeg [1] :: p' :: rest).map Page.extent =
      (front ++ p :: p' :: rest).map Page.extent := by simp
  have hOrder₁ := hOrder.of_extents hExtents
  obtain ⟨result, hWalk⟩ := h.walk (List.ne_nil_of_length_pos (by omega)) hAccepts hMade
  obtain ⟨result₁, hWalk₁⟩ := hWalk.relay hExtents hLength
  rw [← hSame.size_eq] at hLow hWalk₁
  rw [← hSame.limit_eq] at hAccepts hLoad
  rw [← hLength] at hAccepts hOpen
  rw [← p.write_stop a.toNatClampNeg [1]] at hOpen hLow ha
  obtain ⟨m₂, hStore, hZero⟩ := h₁.forget hOrder₁ hAccepts hOpen hLow hWalk₁ hLoad ha
  have hFramed := hSafe m₁ ones m₂ hReached₁ hSame hLength hStore
  have hKept : m₂.load a = .ok 1 := by
    by_cases hIn : address ≤ a ∧ a.toInt < address.toInt + ones.length
    · rw [Int64.le_iff_toInt_le] at hIn
      exact hFramed.inside a 1 (Int64.le_iff_toInt_le.mpr hIn.1) (hOnes _ (by omega))
    · rw [Int64.le_iff_toInt_le] at hIn
      rw [hFramed.outside a (by rw [Int64.lt_iff_toInt_lt]; omega), hOne]
  rw [hZero] at hKept
  cases hKept

end Unclear

/-! ### Whole histories -/

theorem ordered_perform {m : Memory} {pages : List Page} (h : Built m pages)
    (hOrder : Ordered pages) {op : Op} (hMade : madePages (m.perform op) = true)
    (hClear : op.Meets Clear m) :
    ∃ pages', Built (leaves (m.perform op)) pages' ∧ Ordered pages' := by
  rcases h.perform hMade with hSame | hReset | ⟨address, values, result, rfl, hAccepts, hWalk, hNew⟩
  · exact ⟨pages, hSame, hOrder⟩
  · exact ⟨[], hReset, .nil⟩
  · refine ⟨_, hNew, hWalk.ordered (pageCells_pos _) h.laid hOrder ?_⟩
    rw [← h.extents_toList]
    exact hClear hAccepts

theorem everyStore_iff {m : Memory} {pages : List Page} (h : Built m pages) (hOrder : Ordered pages)
    (hReached : Reached m) {ops : List Op} (hMade : Allocates m ops) :
    EveryStore Safe m ops ↔ EveryStore Clear m ops := by
  induction ops generalizing m pages with
  | nil => exact Iff.rfl
  | cons op rest ih =>
    have hOp : op.Meets Safe m ↔ op.Meets Clear m := by
      cases op with
      | store address values =>
        exact ⟨clear_of_safe h hOrder hReached hMade.1, safe_of_clear h hOrder⟩
      | _ => exact Iff.rfl
    rw [EveryStore, EveryStore, hOp]
    refine and_congr_right fun hClear => ?_
    obtain ⟨pages', h', hOrder'⟩ := ordered_perform h hOrder hMade.1 hClear
    exact ih h' hOrder' (hReached.perform hMade.1) hMade.2

/-- **The stores of a history disturb no other cells exactly if they are clear of all holes.** -/
theorem stores_safe_iff_clear (pageSize limit : Int64) (ops : List Op)
    (hMade : Allocates { pageSize, limit } ops) :
    EveryStore Safe { pageSize, limit } ops ↔ EveryStore Clear { pageSize, limit } ops := by
  have hEmpty : Built { pageSize, limit } [] := ⟨rfl, by simp [Laid]⟩
  exact everyStore_iff hEmpty .nil ⟨pageSize, limit, [], trivial, rfl⟩ hMade

/-- Pages of half the size fit into the holes between the old ones. -/
theorem stores_safe_halved :
    let ops : List Op := [.store 8 [1], .store 40 [2], .pageSize 4, .store 14 [3, 3, 3, 3, 3, 3, 3]]
    Allocates { pageSize := 8 } ops ∧ EveryStore Safe { pageSize := 8 } ops := by
  intro ops
  have hMade : Allocates { pageSize := 8 } ops := by decide +kernel
  exact ⟨hMade, (stores_safe_iff_clear 8 0 ops hMade).mpr (by decide +kernel)⟩

/-- A larger page goes into the hole from 8 to 20, but it starts at 0 and takes the place of the
cells from 4 to 8. -/
theorem store_loses_cells :
    let m := run { pageSize := 4 } [.store 4 [7, 7, 7, 7], .store 20 [1], .pageSize 16]
    ∃ m', m.store 9 [3] = .ok () m' ∧ m.load 5 = .ok 7 ∧ m'.load 5 = .ok 0 ∧
      ¬Framed m 9 [3] m' := by
  intro m
  have hLoads : (match m.store 9 [3] with
      | .ok _ m' => decide (m.load 5 = .ok 7 ∧ m'.load 5 = .ok 0)
      | .error .. => false) = true := by decide +kernel
  cases hStore : m.store 9 [3] with
  | ok u m' =>
    rw [hStore] at hLoads
    obtain ⟨hBefore, hAfter⟩ := of_decide_eq_true hLoads
    refine ⟨m', rfl, hBefore, hAfter, fun hFramed => ?_⟩
    have hKept := hFramed.outside 5 (Or.inl (by decide))
    rw [hBefore, hAfter] at hKept
    cases hKept
  | error e m' =>
    rw [hStore] at hLoads
    cases hLoads

end HullRobot.Memory
