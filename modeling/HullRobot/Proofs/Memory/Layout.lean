import HullRobot.Machine.Basic
import HullRobot.Proofs.Memory.Frame
import Mathlib.Data.List.Sort

/-!
# Where the pages lie

Under one page size the line of addresses is cut into pieces of that size, and a page is made for a
piece when an address in it is stored to.  So the directory can be told from the addresses alone,
whatever the order of the stores was.

* `touched`: the addresses that a history has stored to since its last reset.
* `Covers m size addresses`: the pages of `m` are the pieces that have one of the addresses.
* `Spread.base_mem_iff`: **a store makes the pages of its addresses and no other.**
* `Charted.run`: so the pages of a memory are those of the addresses that were touched.
* `layout_is_canonical`: what follows for the directory as a whole.
-/

namespace HullRobot.Memory

/-! ### Addresses that were stored to -/

/-- The touched addresses after one more operation. -/
def touchedBy (m : Memory) (before : List Nat) : Op → List Nat
  | .store address values =>
    match m.store address values with
    | .ok () _ => before ++ List.range' address.toNatClampNeg values.length
    | .error .. => before
  | .reset => []
  | .limit _ | .pageSize _ => before

/-- The addresses that a history has stored to since its last reset; `before` are those that were
touched before it. -/
def touched (m : Memory) (before : List Nat) : List Op → List Nat
  | [] => before
  | op :: rest => touched (leaves (m.perform op)) (touchedBy m before op) rest

/-- There is a page for each piece of `size` cells that has one of the addresses, in order, and
every block is as long as its entry says. -/
structure Covers (m : Memory) (size : Nat) (addresses : List Nat) : Prop where
  increasing : (m.extents.toList.map Extent.base).Pairwise (· < ·)
  base_mem_iff : ∀ b, b ∈ m.extents.toList.map Extent.base ↔ ∃ a ∈ addresses, a / size * size = b
  size_eq : ∀ e ∈ m.extents, e.size = min size (addressStop - e.base)
  blocks_eq : m.blocks.toList.map Array.size = m.extents.toList.map Extent.size

/-! ### What the addresses tell -/

section Covers

variable {m m' : Memory} {size : Nat} {addresses addresses' : List Nat}

theorem Covers.exists_touched (h : m.Covers size addresses) {e : Extent} (he : e ∈ m.extents) :
    ∃ a ∈ addresses, a / size * size = e.base :=
  (h.base_mem_iff e.base).mp (List.mem_map.mpr ⟨e, Array.mem_toList_iff.mpr he, rfl⟩)

theorem Covers.eq_extent (h : m.Covers size addresses) {e : Extent} (he : e ∈ m.extents) :
    e = ⟨e.base, min size (addressStop - e.base)⟩ := by
  rw [← h.size_eq e he]

/-- No page is there that was not stored to. -/
theorem Covers.touched_within (h : m.Covers size addresses) (hSize : 0 < size)
    (hTop : ∀ a ∈ addresses, a < addressStop) {e : Extent} (he : e ∈ m.extents) :
    ∃ a ∈ addresses, e.base ≤ a ∧ a < e.stop := by
  obtain ⟨a, ha, hBase⟩ := h.exists_touched he
  have hLow := base_le_address size a
  have hHigh := address_lt_base_add hSize a
  have hBelow := hTop a ha
  have hLength := h.size_eq e he
  refine ⟨a, ha, by omega, ?_⟩
  rw [Extent.stop]
  omega

/-- Different multiples of the page size are a page apart. -/
theorem mul_add_le {size i j : Nat} (h : i * size < j * size) : i * size + size ≤ j * size := by
  rw [← Nat.succ_mul]
  exact Nat.mul_le_mul_right size (Nat.lt_of_mul_lt_mul_right h)

/-- Pages do not overlap. -/
theorem Covers.disjoint (h : m.Covers size addresses) :
    m.extents.toList.Pairwise fun e e' => e.stop ≤ e'.base := by
  refine (List.pairwise_map.mp h.increasing).imp_of_mem fun {e e'} he he' hLess => ?_
  rw [Array.mem_toList_iff] at he he'
  obtain ⟨a, -, hBase⟩ := h.exists_touched he
  obtain ⟨a', -, hBase'⟩ := h.exists_touched he'
  have hApart : e.base + size ≤ e'.base := by
    rw [← hBase, ← hBase'] at hLess ⊢
    exact mul_add_le hLess
  have hLength := h.size_eq e he
  rw [Extent.stop]
  omega

/-- **The directory depends on the addresses only.** -/
theorem Covers.extents_eq (h : m.Covers size addresses) (h' : m'.Covers size addresses')
    (hSame : ∀ a, a ∈ addresses' ↔ a ∈ addresses) : m'.extents = m.extents := by
  have hBases : m'.extents.toList.map Extent.base = m.extents.toList.map Extent.base := by
    refine List.Pairwise.eq_of_mem_iff h'.increasing h.increasing fun b => ?_
    simp only [h'.base_mem_iff, h.base_mem_iff, hSame]
  have hEntries : ∀ {n : Memory} {as : List Nat}, n.Covers size as → n.extents.toList =
      (n.extents.toList.map Extent.base).map fun b => ⟨b, min size (addressStop - b)⟩ := by
    intro n as hn
    rw [List.map_map]
    refine (List.map_id _).symm.trans (List.map_congr_left fun e he => ?_)
    exact hn.eq_extent (Array.mem_toList_iff.mp he)
  rw [← Array.toList_inj, hEntries h', hBases, ← hEntries h]

/-- The address after the last page, from the directory. -/
theorem Covers.size_ok (h : m.Covers size addresses) :
    m.size = .ok ((m.extents.back?.map Extent.stop).getD 0) := by
  have hLengths : m.blocks.size = m.extents.size := by
    simpa using congrArg List.length h.blocks_eq
  unfold Memory.size
  cases hBack : m.extents.back? with
  | none => rfl
  | some last =>
    rw [Array.back?_eq_getElem?] at hBack
    have hBlock := congrArg (·[m.extents.size - 1]?) h.blocks_eq
    simp only [List.getElem?_map, Array.getElem?_toList, hBack, Option.map_some] at hBlock
    obtain ⟨block, hGet, hLength⟩ := Option.map_eq_some_iff.mp hBlock
    simp only [hGet, hLength, Option.map_some, Option.getD_some, Extent.stop]

theorem Covers.base_le_last (h : m.Covers size addresses) {last : Extent}
    (hLast : m.extents.back? = some last) {b : Nat}
    (hb : b ∈ m.extents.toList.map Extent.base) : b ≤ last.base := by
  have hSplit : m.extents.toList.map Extent.base =
      (m.extents.toList.map Extent.base).dropLast ++ [last.base] := by
    refine (List.dropLast_append_getLast? _ ?_).symm
    rw [List.getLast?_map, Array.getLast?_toList, hLast]
    rfl
  have hOrder := h.increasing
  rw [hSplit] at hb hOrder
  rcases List.mem_append.mp hb with hFront | hEnd
  · have hBelow := (List.pairwise_append.mp hOrder).2.2 b hFront _ (List.mem_singleton.mpr rfl)
    exact Nat.le_of_lt hBelow
  · exact Nat.le_of_eq (List.mem_singleton.mp hEnd)

/-- **More addresses never make a memory smaller.** -/
theorem Covers.size_le (h : m.Covers size addresses) (h' : m'.Covers size addresses')
    (hMore : ∀ a ∈ addresses, a ∈ addresses') :
    ∃ n n', m.size = .ok n ∧ m'.size = .ok n' ∧ n ≤ n' := by
  refine ⟨_, _, h.size_ok, h'.size_ok, ?_⟩
  cases hLast : m.extents.back? with
  | none => exact Nat.zero_le _
  | some last =>
    have hMem : last ∈ m.extents := Array.mem_of_back? hLast
    obtain ⟨a, ha, hBase⟩ := h.exists_touched hMem
    have hMem' := (h'.base_mem_iff last.base).mpr ⟨a, hMore a ha, hBase⟩
    cases hLast' : m'.extents.back? with
    | none =>
      obtain ⟨e, he, -⟩ := List.mem_map.mp hMem'
      rw [Array.back?_eq_none_iff] at hLast'
      simp [hLast'] at he
    | some last' =>
      have hLe := h'.base_le_last hLast' hMem'
      have hLength := h.size_eq last hMem
      have hLength' := h'.size_eq last' (Array.mem_of_back? hLast')
      simp only [Option.map_some, Option.getD_some, Extent.stop]
      omega

end Covers

/-! ### The pages of a store -/

theorem Canonical.div_mul_eq {size : Nat} {p : Page} (h : Canonical size p) {a : Nat}
    (hBase : p.base ≤ a) (hStop : a < p.stop) : a / size * size = p.base := by
  obtain ⟨⟨k, hk⟩, hEnd⟩ := h
  rw [hk, Nat.mul_comm size k] at hBase ⊢
  rw [hk, Nat.mul_comm size k] at hEnd
  have hDiv : a / size = k := by
    refine Nat.div_eq_of_lt_le hBase ?_
    rw [Nat.succ_mul]
    omega
  rw [hDiv]

/-- A store of `count` values at `address` needs the piece that starts at `b`. -/
def Needs (size address count b : Nat) : Prop :=
  ∃ a, address ≤ a ∧ a < address + count ∧ a / size * size = b

/-- The values that a page takes are those of its own piece, and the rest is for later pages. -/
theorem needs_iff_page {size address : Nat} {p : Page} {values : List Int64} (hSome : values ≠ [])
    (hp : Canonical size p) (hBase : p.base ≤ address) (hStop : address < p.stop) (b : Nat) :
    Needs size address values.length b ↔ b = p.base ∨
      Needs size (address + p.room address values) (values.drop (p.room address values)).length
        b := by
  have hPos := Page.room_pos hBase hStop hSome
  have hLe := p.room_le_length address values
  have hRoom := Page.add_room_le hBase hStop values
  rw [List.length_drop]
  constructor
  · rintro ⟨a, hLow, hHigh, rfl⟩
    by_cases hIn : a < address + p.room address values
    · exact .inl (hp.div_mul_eq (by omega) (by omega))
    · exact .inr ⟨a, by omega, by omega, rfl⟩
  · rintro (rfl | ⟨a, hLow, hHigh, rfl⟩)
    · exact ⟨address, Nat.le_refl _, by omega, hp.div_mul_eq hBase hStop⟩
    · exact ⟨a, by omega, by omega, rfl⟩

theorem canonical_write_iff {size : Nat} {p : Page} (address : Nat) (values : List Int64) :
    Canonical size (p.write address values) ↔ Canonical size p := by
  rw [Canonical, Canonical, Page.write_base, Page.write_stop]

/-- **A store makes the pages of its addresses and no other.** -/
theorem Spread.base_mem_iff {size stop address : Nat} {pages result : List Page}
    {values : List Int64} (h : Spread size stop pages address values result)
    (hResult : AllCanonical size result) (b : Nat) :
    b ∈ result.map Page.base ↔
      b ∈ pages.map Page.base ∨ Needs size address values.length b := by
  induction h with
  | done stop pages address =>
    refine ⟨.inl, fun hMem => hMem.resolve_right ?_⟩
    rintro ⟨a, hLow, hHigh, -⟩
    rw [List.length_nil] at hHigh
    omega
  | pass _ _ _ _ ih =>
    have hRest := ih (List.forall_mem_cons.mp hResult).2
    rw [List.map_cons, List.mem_cons, hRest, List.map_cons, List.mem_cons, or_assoc]
  | @held stop address p rest result values hSome hBase hStop _ ih =>
    obtain ⟨hp, hRest⟩ := List.forall_mem_cons.mp hResult
    rw [canonical_write_iff] at hp
    rw [List.map_cons, List.mem_cons, ih hRest, needs_iff_page hSome hp hBase hStop, List.map_cons,
      List.mem_cons, Page.write_base]
    tauto
  | @fresh stop address q pages result values hSome _ _ hFits _ _ ih =>
    obtain ⟨hq, hRest⟩ := List.forall_mem_cons.mp hResult
    rw [canonical_write_iff] at hq
    rw [List.map_cons, List.mem_cons, ih hRest,
      needs_iff_page hSome hq hFits.base_le hFits.lt_stop, Page.write_base]
    tauto

theorem Walk.base_mem_iff {size address : Nat} {pages result : List Page} {values : List Int64}
    (h : Walk size pages address values result)
    (hCanonical : AllCanonical size (rebuilt pages address result)) (b : Nat) :
    b ∈ (rebuilt pages address result).map Page.base ↔
      b ∈ pages.map Page.base ∨ Needs size address values.length b := by
  have hResult : AllCanonical size result := fun p hp => hCanonical p (List.mem_append_right _ hp)
  have hPages : b ∈ pages.map Page.base ↔
      b ∈ (pages.take (found pages address)).map Page.base ∨
        b ∈ (pages.drop (found pages address)).map Page.base := by
    rw [← List.mem_append, ← List.map_append, List.take_append_drop]
  rw [rebuilt, List.map_append, List.mem_append, Spread.base_mem_iff h hResult, hPages, or_assoc]

/-! ### Histories -/

/-- The pages of `m`, which are all of one size, are those of the addresses. -/
structure Charted (size : Nat) (m : Memory) (pages : List Page) (addresses : List Nat) : Prop where
  built : Built m pages
  size_eq : pageCells m.pageSize = size
  ordered : Ordered pages
  canonical : AllCanonical size pages
  base_mem_iff : ∀ b, b ∈ pages.map Page.base ↔ ∃ a ∈ addresses, a / size * size = b
  below : ∀ a ∈ addresses, a < addressStop

section Charted

variable {size : Nat} {m : Memory} {pages : List Page} {addresses : List Nat}

theorem charted_blank (pageSize limit : Int64) :
    Charted (pageCells pageSize) { pageSize, limit } [] [] :=
  ⟨⟨rfl, by simp [Laid]⟩, rfl, .nil, by simp [AllCanonical], by simp, by simp⟩

theorem Charted.covers (h : Charted size m pages addresses) : m.Covers size addresses := by
  have hExtents := h.built.extents_toList
  have hBases : m.extents.toList.map Extent.base = pages.map Page.base := by
    rw [hExtents, List.map_map]
    rfl
  refine ⟨?_, ?_, fun e he => ?_, ?_⟩
  · rw [hBases, List.pairwise_map]
    refine h.ordered.imp_of_mem fun {p q} hp _ hStop => ?_
    have := (h.built.laid p hp).1
    omega
  · rw [hBases]
    exact h.base_mem_iff
  · rw [← Array.mem_toList_iff, hExtents] at he
    obtain ⟨p, hp, rfl⟩ := List.mem_map.mp he
    have hLaid := h.built.laid p hp
    have hStop := (h.canonical p hp).2
    simp only [Page.extent, Page.stop] at hLaid hStop ⊢
    omega
  · rw [hExtents, h.built.eq_build]
    simp [build, Page.extent, Function.comp_def]

/-- **What an operation does to the pages and the touched addresses.** -/
theorem Charted.perform (h : Charted size m pages addresses) {op : Op}
    (hFixed : ∀ n, op ≠ .pageSize n) (hMade : madePages (m.perform op) = true) :
    ∃ pages', Charted size (leaves (m.perform op)) pages' (touchedBy m addresses op) := by
  cases op with
  | store address values =>
    simp only [Memory.perform] at hMade ⊢
    rcases h.built.store_cases hMade with
      rfl | ⟨fault, hStore⟩ | ⟨hSome, hAccepts, result, hWalk, hStore⟩
    · refine ⟨pages, ?_⟩
      simp only [touchedBy, store_nil, List.length_nil, List.range'_zero, List.append_nil]
      exact h
    · refine ⟨pages, ?_⟩
      simp only [touchedBy, hStore]
      exact h
    · have hNat := toNat_eq_toInt hAccepts.1
      have hTop := hAccepts.2.1
      have hPos : 0 < size := h.size_eq ▸ pageCells_pos m.pageSize
      rw [h.size_eq] at hWalk
      have hCanonical := hWalk.canonical hPos (by omega) h.canonical
      refine ⟨rebuilt pages address.toNatClampNeg result, ?_⟩
      simp only [touchedBy, hStore, leaves]
      refine ⟨⟨rfl, hWalk.laid h.built.laid⟩, ?_, ?_, hCanonical, fun b => ?_, fun a ha => ?_⟩
      · rw [build, pageCells_effectiveSize, h.size_eq]
      · exact hWalk.ordered hPos h.built.laid h.ordered (h.canonical.clearOf h.built.laid _ _)
      · rw [hWalk.base_mem_iff hCanonical, h.base_mem_iff]
        simp only [Needs, List.mem_append, List.mem_range'_1, or_and_right, exists_or, and_assoc]
      · rcases List.mem_append.mp ha with hOld | hNew
        · exact h.below a hOld
        · have := List.mem_range'_1.mp hNew
          omega
  | reset => exact ⟨[], ⟨rfl, by simp [Laid]⟩, h.size_eq, .nil, by simp [AllCanonical],
      by simp [touchedBy], by simp [touchedBy]⟩
  | limit limit =>
    refine ⟨pages, ⟨?_, h.built.laid⟩, h.size_eq, h.ordered, h.canonical, h.base_mem_iff, h.below⟩
    simp only [Memory.perform, leaves]
    rw [h.built.eq_build]
    rfl
  | pageSize n => exact absurd rfl (hFixed n)

/-- **The pages are those of the addresses that a history has touched.** -/
theorem Charted.run {ops : List Op} (h : Charted size m pages addresses)
    (hFixed : ∀ n, Op.pageSize n ∉ ops) (hMade : Allocates m ops) :
    ∃ pages', Charted size (m.run ops) pages' (touched m addresses ops) := by
  induction ops generalizing m pages addresses with
  | nil => exact ⟨pages, h⟩
  | cons op rest ih =>
    have hOp : ∀ n, op ≠ .pageSize n := fun n hEq => hFixed n (by simp [hEq])
    obtain ⟨pages', hNext⟩ := h.perform hOp hMade.1
    exact ih hNext (fun n hMem => hFixed n (by simp [hMem])) hMade.2

end Charted

theorem touchedBy_mono {m : Memory} {before : List Nat} {op : Op} (hKept : op ≠ .reset) :
    ∀ a ∈ before, a ∈ touchedBy m before op := by
  intro a ha
  cases op with
  | store address values =>
    simp only [touchedBy]
    split
    · exact List.mem_append_left _ ha
    · exact ha
  | reset => exact absurd rfl hKept
  | limit limit => exact ha
  | pageSize size => exact ha

/-- Until the next reset touched addresses stay touched. -/
theorem touched_mono {m : Memory} {before : List Nat} {ops : List Op} (hKept : Op.reset ∉ ops) :
    ∀ a ∈ before, a ∈ touched m before ops := by
  induction ops generalizing m before with
  | nil => exact fun a ha => ha
  | cons op rest ih =>
    intro a ha
    have hOp : op ≠ .reset := fun hEq => hKept (by simp [hEq])
    exact ih (fun hMem => hKept (by simp [hMem])) a (touchedBy_mono hOp a ha)

/-- A load of a machine leaves its memory as it is, whether it succeeds or not. -/
theorem memory_of_load (machine : Machine) (a : Int64) :
    match machine.load a with
    | .ok _ after => after.memory = machine.memory
    | .error _ after => after.memory = machine.memory := by
  have hGet : ∀ f : Machine → Action Int64, (get >>= f) machine = f machine machine :=
    fun f => (rfl)
  rw [Machine.load, hGet]
  cases machine.memory.load a with
  | ok v => rfl
  | error e => cases e <;> rfl

/-- **The page layout is canonical.**  After any history under one page size, the pages start at the
multiples of the page size below the addresses that were stored to since the last reset, in
increasing order, and they are cut only at the last address.  So every page was stored to, pages do
not overlap, loads make none, until a reset the size never decreases, and stores to the same
addresses in any order and any grouping end with the same directory. -/
theorem layout_is_canonical (m₀ : Memory) (ops : List Op) (hFixed : ∀ n, Op.pageSize n ∉ ops)
    (hMade : Allocates m₀.reset ops) :
    let size := pageCells m₀.pageSize
    let m := m₀.reset.run ops
    let addresses := touched m₀.reset [] ops
    m.Covers size addresses ∧
    (∀ e ∈ m.extents, ∃ a ∈ addresses, e.base ≤ a ∧ a < e.stop) ∧
    (m.extents.toList.Pairwise fun e e' => e.stop ≤ e'.base) ∧
    (∀ (machine : Machine) (a : Int64), machine.memory = m → match machine.load a with
      | .ok _ after => after.memory = m
      | .error _ after => after.memory = m) ∧
    (∀ more, (∀ n, Op.pageSize n ∉ more) → Op.reset ∉ more → Allocates m more →
      ∃ n n', m.size = .ok n ∧ (m.run more).size = .ok n' ∧ n ≤ n') ∧
    ∀ (m₁ : Memory) (ops₁ : List Op), pageCells m₁.pageSize = size →
      (∀ n, Op.pageSize n ∉ ops₁) → Allocates m₁.reset ops₁ →
      (∀ a, a ∈ touched m₁.reset [] ops₁ ↔ a ∈ addresses) →
      (m₁.reset.run ops₁).extents = m.extents := by
  intro size m addresses
  obtain ⟨pages, hCharted⟩ := (charted_blank m₀.pageSize m₀.limit).run hFixed hMade
  have hCovers : m.Covers size addresses := hCharted.covers
  refine ⟨hCovers, fun e he => ?_, hCovers.disjoint, ?_, fun more hSame hKept hMore => ?_,
    fun m₁ ops₁ hSize hSame hMade₁ hTouched => ?_⟩
  · exact hCovers.touched_within (pageCells_pos m₀.pageSize) hCharted.below he
  · intro machine a hMemory
    rw [← hMemory]
    exact memory_of_load machine a
  · obtain ⟨pages', hLater⟩ := hCharted.run hSame hMore
    exact hCovers.size_le hLater.covers (touched_mono hKept)
  · obtain ⟨pages₁, hCharted₁⟩ := (charted_blank m₁.pageSize m₁.limit).run hSame hMade₁
    rw [hSize] at hCharted₁
    exact hCovers.extents_eq hCharted₁.covers hTouched

/-- Stores that fill a hole and cross the end of a page, and the same addresses in another order. -/
theorem layout_is_canonical_regrouped :
    let m₀ : Memory := { pageSize := 4 }
    let ops : List Op := [.store 0 [9], .store 9 [1, 2, 3, 4], .store 5 [7],
      .store 9223372036854775806 [8]]
    let ops₁ : List Op := [.store 1 [3], .reset, .store 11 [3, 4], .store 9223372036854775806 [8],
      .store 5 [7], .store 9 [1, 2], .limit 12, .store 12 [0], .store 0 [9]]
    Allocates m₀.reset ops ∧ Allocates m₀.reset ops₁ ∧
      (m₀.reset.run ops).Covers 4 (touched m₀.reset [] ops) ∧
      (m₀.reset.run ops).extents =
        #[⟨0, 4⟩, ⟨4, 4⟩, ⟨8, 4⟩, ⟨12, 4⟩, ⟨9223372036854775804, 3⟩] ∧
      (m₀.reset.run ops₁).extents = (m₀.reset.run ops).extents := by
  intro m₀ ops ops₁
  have hFixed : ∀ n, Op.pageSize n ∉ ops := by simp [ops]
  have hFixed₁ : ∀ n, Op.pageSize n ∉ ops₁ := by simp [ops₁]
  have hMade : Allocates m₀.reset ops := (Represents.empty 4 0).allocates hFixed (by decide)
  have hMade₁ : Allocates m₀.reset ops₁ := (Represents.empty 4 0).allocates hFixed₁ (by decide)
  have hTouched : touched m₀.reset [] ops = [0, 9, 10, 11, 12, 5, 9223372036854775806] := by
    decide +kernel
  have hTouched₁ : touched m₀.reset [] ops₁ = [11, 12, 9223372036854775806, 5, 9, 10, 0] := by
    decide +kernel
  have hPerm : (touched m₀.reset [] ops₁).Perm (touched m₀.reset [] ops) := by
    rw [hTouched, hTouched₁]
    decide
  obtain ⟨hCovers, -, -, -, -, hSame⟩ := layout_is_canonical m₀ ops hFixed hMade
  exact ⟨hMade, hMade₁, hCovers, by decide +kernel,
    hSame m₀ ops₁ rfl hFixed₁ hMade₁ fun a => hPerm.mem_iff⟩

end HullRobot.Memory
