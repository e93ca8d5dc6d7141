import Mathlib.Data.List.Chain
import HullRobot.Proofs.Memory.Spread

/-!
# What a store leaves in memory

A store on ordered pages changes the cells of its range and no other cell, as long as the first page
with an address is asked for it (`Spread.cellOf_eq`).  Whether a load asks that page depends on
whether the pages stay ordered.  They do exactly if no page that is made between two others starts
before the one in front of it ends, and this can be told from the directory beforehand:

* `ClearOf size start bound e e'`: a store of the addresses from `start` up to `bound` that enters
  the hole between the pages `e` and `e'` makes no page there that starts before the hole.
* `Walk.cellOf_eq`, `Walk.ordered`: **a store that is clear of all holes keeps the pages ordered**,
  and then every load gives what it should.
* `Walk.canonical`, `Canonical.clearOf`: under one page size every page starts at a multiple of it,
  and then every store is clear of all holes.
-/

namespace HullRobot.Memory

/-! ### Pages stay laid out -/

theorem Spread.laid {size stop address : Nat} {pages result : List Page} {values : List Int64}
    (h : Spread size stop pages address values result) (hLaid : Laid pages) : Laid result := by
  induction h with
  | done => exact hLaid
  | pass _ _ _ _ ih =>
    have hRest := List.forall_mem_cons.mp hLaid
    exact List.forall_mem_cons.mpr ⟨hRest.1, ih hRest.2⟩
  | held _ _ _ _ ih =>
    have hRest := List.forall_mem_cons.mp hLaid
    refine List.forall_mem_cons.mpr ⟨?_, ih hRest.2⟩
    rw [Page.write_base, Page.write_stop]
    exact hRest.1
  | fresh _ _ _ hFits _ _ ih =>
    refine List.forall_mem_cons.mpr ⟨?_, ih hLaid⟩
    rw [Page.write_base, Page.write_stop]
    exact ⟨Nat.lt_of_le_of_lt hFits.base_le hFits.lt_stop, hFits.stop_le⟩

/-! ### Cells -/

/-- The cells `f` with `values` written over them from `address` on. -/
def overlay (address : Nat) (values : List Int64) (f : Nat → Int64) (a : Nat) : Int64 :=
  if address ≤ a then (values[a - address]?).getD (f a) else f a

theorem overlay_of_lt {address a : Nat} (h : a < address) (values : List Int64) (f : Nat → Int64) :
    overlay address values f a = f a := if_neg (by omega)

theorem overlay_of_le {address a : Nat} (h : address ≤ a) (values : List Int64) (f : Nat → Int64) :
    overlay address values f a = (values[a - address]?).getD (f a) := if_pos h

theorem overlay_of_length_le {address a : Nat} {values : List Int64}
    (h : address + values.length ≤ a) (f : Nat → Int64) : overlay address values f a = f a := by
  rw [overlay_of_le (by omega), List.getElem?_eq_none (by omega), Option.getD_none]

@[simp] theorem overlay_nil (address : Nat) (f : Nat → Int64) (a : Nat) :
    overlay address [] f a = f a := by simp [overlay]

theorem overlay_congr {f g : Nat → Int64} {a : Nat} (h : f a = g a) (address : Nat)
    (values : List Int64) : overlay address values f a = overlay address values g a := by
  simp only [overlay, h]

/-- A page takes the first values, and what it has no room for is written behind it. -/
theorem Page.getD_write {p : Page} {address : Nat} (hBase : p.base ≤ address)
    (hStop : address < p.stop) (values : List Int64) (f : Nat → Int64) (a : Nat) :
    ((p.write address values).cell? a).getD
        (overlay (address + p.room address values) (values.drop (p.room address values)) f a) =
      overlay address values (fun a => (p.cell? a).getD (f a)) a := by
  have hLe := Page.room_le_length p address values
  rw [Page.cell?_write hBase]
  by_cases hLow : a < address
  · rw [if_neg (by omega), overlay_of_lt (by omega), overlay_of_lt hLow]
  by_cases hIn : a < address + p.room address values
  · rw [if_pos (by omega), overlay_of_le (show address ≤ a by omega) values,
      List.getElem?_eq_getElem (by omega), Option.getD_some, Option.getD_some]
  rw [if_neg (by omega), overlay_of_le (by omega), overlay_of_le (by omega), List.getElem?_drop,
    show p.room address values + (a - (address + p.room address values)) = a - address by omega]
  rcases Page.room_full hBase hStop values with hAll | hFull
  · rw [List.getElem?_eq_none (by omega), Option.getD_none, Option.getD_none]
  · rw [Page.cell?_eq_none (Or.inr (by omega)), Option.getD_none, Option.getD_none]

theorem Ordered.next_le {pages : List Page} (hOrder : Ordered pages) (hLaid : Laid pages)
    {stop : Nat} (hClear : ∀ base ∈ nextBase pages, stop ≤ base) : ∀ p ∈ pages, stop ≤ p.base := by
  cases pages with
  | nil => simp
  | cons q rest =>
    have hHead := hClear q.base rfl
    have hAfter := (List.pairwise_cons.mp hOrder).1
    have hq := (hLaid q (by simp)).1
    refine List.forall_mem_cons.mpr ⟨hHead, fun p hp => ?_⟩
    have := hAfter p hp
    omega

/-- **The first page with an address has what the store leaves there.** -/
theorem Spread.cellOf_eq {size stop address : Nat} {pages result : List Page} {values : List Int64}
    (h : Spread size stop pages address values result) (hLaid : Laid pages)
    (hOrder : Ordered pages) (a : Nat) :
    cellOf result a = overlay address values (cellOf pages) a := by
  induction h with
  | done => rw [overlay_nil]
  | @pass stop address p rest result values _ _ hStop _ ih =>
    have hRest := List.forall_mem_cons.mp hLaid
    rw [cellOf_cons, ih hRest.2 (List.pairwise_cons.mp hOrder).2]
    by_cases hLow : a < address
    · rw [overlay_of_lt hLow, overlay_of_lt hLow, cellOf_cons]
    · rw [Page.cell?_eq_none (Or.inr (by omega)), Option.getD_none]
      refine overlay_congr ?_ _ _
      rw [cellOf_cons, Page.cell?_eq_none (Or.inr (by omega)), Option.getD_none]
  | @held stop address p rest result values _ hBase hStop _ ih =>
    have hRest := List.forall_mem_cons.mp hLaid
    rw [cellOf_cons, ih hRest.2 (List.pairwise_cons.mp hOrder).2, Page.getD_write hBase hStop]
    exact overlay_congr (cellOf_cons p rest a).symm _ _
  | @fresh stop address q pages result values _ _ hNew hFits _ _ ih =>
    rw [cellOf_cons, ih hLaid hOrder, Page.getD_write hFits.base_le hFits.lt_stop]
    refine overlay_congr ?_ _ _
    -- Where the new page has a cell, it reads 0, and no page after it has one.
    by_cases hHeld : a < q.stop
    · have hBehind := hOrder.next_le hLaid hFits.clear
      rw [cellOf_eq_zero fun p hp => Or.inl (Nat.lt_of_lt_of_le hHeld (hBehind p hp)), hNew]
      exact Page.cell?_blank _ _
    · rw [Page.cell?_eq_none (Or.inr (by omega)), Option.getD_none]

/-! ### Order -/

/-- A store of the addresses from `start` up to `bound` that enters the hole between two pages makes
no page there that starts before the hole. -/
def ClearOf (size start bound : Nat) (e e' : Extent) : Prop :=
  max start e.stop < min bound e'.base → e.stop ≤ max start e.stop / size * size

instance (size start bound : Nat) (e e' : Extent) : Decidable (ClearOf size start bound e e') :=
  inferInstanceAs (Decidable (_ → _))

/-- Only the end of the page in front counts. -/
theorem clearOf_behind {size start bound : Nat} {p : Page} {rest : List Page}
    (h : ((p :: rest).map Page.extent).IsChain (ClearOf size start bound)) :
    (⟨p.stop, 0⟩ :: rest.map Page.extent).IsChain (ClearOf size start bound) :=
  List.IsChain.cons_of_imp (fun e (hClear : ClearOf size start bound p.extent e) => hClear) h

/-- A page made before another ends at a multiple of the page size, or at that page. -/
theorem newExtent_stop {size stop address base : Nat} (hSize : 0 < size) (hTop : base ≤ addressStop)
    (hShort : (newExtent size stop (some base) address).stop < base) :
    (newExtent size stop (some base) address).stop = (address / size + 1) * size := by
  have hHigh := address_lt_base_add hSize address
  simp only [newExtent, gapExtent, clamp, Extent.stop, Nat.succ_mul] at hShort ⊢
  omega

theorem newExtent_base_of_next (size stop address base : Nat) :
    (newExtent size stop (some base) address).base = address / size * size := rfl

/-- **A store that is clear of all holes keeps the pages ordered.** -/
theorem Spread.ordered {size stop address : Nat} {pages result : List Page} {values : List Int64}
    (h : Spread size stop pages address values result) (hSize : 0 < size) {start bound : Nat}
    (hStart : values ≠ [] → max start stop = address) (hBound : address + values.length = bound)
    (hLaid : Laid pages) (hOrder : Ordered pages) (hBehind : ∀ p ∈ pages, stop ≤ p.base)
    (hClear : (⟨stop, 0⟩ :: pages.map Page.extent).IsChain (ClearOf size start bound)) :
    Ordered result ∧ ∀ p ∈ result, stop ≤ p.base := by
  induction h with
  | done => exact ⟨hOrder, hBehind⟩
  | @pass stop address p rest result values hSome _ hStop _ ih =>
    obtain ⟨hp, hRest⟩ := List.forall_mem_cons.mp hLaid
    obtain ⟨hAfter, hOrderRest⟩ := List.pairwise_cons.mp hOrder
    have hStopBase := hBehind p (by simp)
    have hHere := hStart hSome
    obtain ⟨hOrdered, hAll⟩ := ih (fun _ => by omega) hBound hRest hOrderRest hAfter
      (clearOf_behind hClear.tail)
    refine ⟨List.pairwise_cons.mpr ⟨hAll, hOrdered⟩, List.forall_mem_cons.mpr ⟨hStopBase, ?_⟩⟩
    intro q hq
    have := hAll q hq
    omega
  | @held stop address p rest result values hSome hBase hStop _ ih =>
    obtain ⟨hp, hRest⟩ := List.forall_mem_cons.mp hLaid
    obtain ⟨hAfter, hOrderRest⟩ := List.pairwise_cons.mp hOrder
    have hStopBase := hBehind p (by simp)
    have hHere := hStart hSome
    have hLe := Page.room_le_length p address values
    have hRoom := Page.add_room_le hBase hStop values
    obtain ⟨hOrdered, hAll⟩ := ih
      (fun hLeft => by have := Page.stop_le_of_rest hBase hStop hLeft; omega)
      (by rw [List.length_drop]; omega) hRest hOrderRest hAfter (clearOf_behind hClear.tail)
    refine ⟨List.pairwise_cons.mpr ⟨by rw [Page.write_stop]; exact hAll, hOrdered⟩,
      List.forall_mem_cons.mpr ⟨hStopBase, ?_⟩⟩
    intro q hq
    have := hAll q hq
    omega
  | @fresh stop address q pages result values hSome hAhead hNew hFits _ _ ih =>
    have hHere := hStart hSome
    have hLength := List.length_pos_iff.mpr hSome
    have hLe := Page.room_le_length q address values
    have hBase : q.base ≤ address := hFits.base_le
    have hStop : address < q.stop := hFits.lt_stop
    have hRoom := Page.add_room_le hBase hStop values
    have hAfter := hOrder.next_le hLaid hFits.clear
    have hQBase : stop ≤ q.base := by
      cases pages with
      | nil => exact hFits.tail rfl
      | cons p rest =>
        have hEntry := (List.isChain_cons_cons.mp hClear).1
        have hNext := hAhead p.base rfl
        have hOpen : max start stop < min bound p.base := by omega
        have := hEntry hOpen
        rw [hNew, Page.blank_base, nextBase_cons, newExtent_base_of_next, ← hHere]
        exact this
    have hChain : (⟨q.stop, 0⟩ :: pages.map Page.extent).IsChain (ClearOf size start bound) := by
      cases pages with
      | nil => exact .singleton _
      | cons p rest =>
        refine List.isChain_cons_cons.mpr ⟨fun hOpen => ?_, (List.isChain_cons_cons.mp hClear).2⟩
        have hShort : q.stop < p.base := by
          simp only [Extent.stop, Nat.add_zero, Page.extent_base] at hOpen
          omega
        have hTop := (hLaid p (by simp)).2
        have hpBase := (hLaid p (by simp)).1
        -- The page is not cut, so the hole goes on at a multiple of the page size.
        have hMultiple : q.stop = (address / size + 1) * size := by
          rw [hNew, Page.blank_stop] at hShort ⊢
          exact newExtent_stop hSize (by omega) hShort
        have hMax : max start q.stop = q.stop := by omega
        simp only [Extent.stop, Nat.add_zero]
        rw [hMax, hMultiple, Nat.mul_div_cancel _ hSize]
    obtain ⟨hOrdered, hAll⟩ := ih
      (fun hLeft => by have := Page.stop_le_of_rest hBase hStop hLeft; omega)
      (by rw [List.length_drop]; omega) hLaid hOrder hAfter hChain
    refine ⟨List.pairwise_cons.mpr ⟨by rw [Page.write_stop]; exact hAll, hOrdered⟩,
      List.forall_mem_cons.mpr ⟨hQBase, ?_⟩⟩
    intro p hp
    have := hAll p hp
    omega

/-! ### One page size -/

/-- The page starts at a multiple of the page size and is as long as that allows. -/
def Canonical (size : Nat) (p : Page) : Prop :=
  size ∣ p.base ∧ p.stop = min (p.base + size) addressStop

/-- The pages are those of one page size. -/
def AllCanonical (size : Nat) (pages : List Page) : Prop := ∀ p ∈ pages, Canonical size p

theorem Canonical.dvd_stop {size : Nat} {p : Page} (h : Canonical size p)
    (hTop : p.stop < addressStop) : size ∣ p.stop := by
  obtain ⟨hBase, hStop⟩ := h
  rw [show p.stop = p.base + size by omega]
  exact Nat.dvd_add hBase (Nat.dvd_refl size)

theorem le_div_mul {size stop address : Nat} (h : size ∣ stop) (hLe : stop ≤ address) :
    stop ≤ address / size * size := by
  obtain ⟨k, rfl⟩ := h
  rcases Nat.eq_zero_or_pos size with rfl | hSize
  · simp
  · rw [Nat.mul_comm]
    exact Nat.mul_le_mul_right size ((Nat.le_div_iff_mul_le hSize).mpr (by rwa [Nat.mul_comm]))

theorem Canonical.clearOf {size : Nat} {p : Page} (h : Canonical size p) {e : Extent}
    (hTop : e.base ≤ addressStop) (start bound : Nat) : ClearOf size start bound p.extent e := by
  intro hOpen
  rw [Page.extent_stop] at hOpen ⊢
  exact le_div_mul (h.dvd_stop (by omega)) (by omega)

/-- A page made between canonical pages is canonical. -/
theorem canonical_newExtent {size stop address : Nat} {next : Option Nat} {q : Page}
    (hNew : q = .blank (newExtent size stop next address)) (hSize : 0 < size)
    (hTop : address < addressStop) (hAhead : ∀ base ∈ next, address < base ∧ size ∣ base)
    (hTail : next = none → stop ≤ address ∧ size ∣ stop) : Canonical size q := by
  have hLow := base_le_address size address
  have hDvd : size ∣ address / size * size := Nat.dvd_mul_left _ _
  unfold Canonical
  rw [hNew, Page.blank_base, Page.blank_stop]
  cases next with
  | none =>
    obtain ⟨hStop, hMultiple⟩ := hTail rfl
    have hNotCut : ¬address / size * size < stop := Nat.not_lt.mpr (le_div_mul hMultiple hStop)
    simp only [newExtent, tailExtent, if_neg hNotCut, clamp, Extent.stop]
    exact ⟨hDvd, by omega⟩
  | some base =>
    obtain ⟨hNext, hMultiple⟩ := hAhead base rfl
    have hHigh := address_lt_base_add hSize address
    -- The next page starts at a later multiple, so it does not cut this one.
    have hFar : address / size * size + size ≤ base := by
      obtain ⟨k, rfl⟩ := hMultiple
      rw [Nat.mul_comm size k, ← Nat.succ_mul]
      refine Nat.mul_le_mul_right size (Nat.lt_of_mul_lt_mul_right (a := size) ?_)
      rw [Nat.mul_comm k size]
      omega
    simp only [newExtent, gapExtent, clamp, Extent.stop]
    exact ⟨hDvd, by omega⟩

theorem Spread.canonical {size stop address : Nat} {pages result : List Page} {values : List Int64}
    (h : Spread size stop pages address values result) (hSize : 0 < size)
    (hTop : address + values.length ≤ addressStop) (hPages : AllCanonical size pages)
    (hTail : values ≠ [] → pages = [] → stop ≤ address ∧ size ∣ stop) :
    AllCanonical size result := by
  induction h with
  | done => exact hPages
  | @pass stop address p rest result values hSome _ hStop _ ih =>
    obtain ⟨hp, hRest⟩ := List.forall_mem_cons.mp hPages
    have hLength := List.length_pos_iff.mpr hSome
    exact List.forall_mem_cons.mpr
      ⟨hp, ih hTop hRest fun _ _ => ⟨hStop, hp.dvd_stop (by omega)⟩⟩
  | @held stop address p rest result values hSome hBase hStop _ ih =>
    obtain ⟨hp, hRest⟩ := List.forall_mem_cons.mp hPages
    have hLe := Page.room_le_length p address values
    refine List.forall_mem_cons.mpr ⟨?_, ih ?_ hRest fun hLeft _ => ?_⟩
    · rw [Canonical, Page.write_base, Page.write_stop]
      exact hp
    · rw [List.length_drop]
      omega
    · have hStopLe := Page.stop_le_of_rest hBase hStop hLeft
      have hLeftLength := List.length_pos_iff.mpr hLeft
      rw [List.length_drop] at hLeftLength
      exact ⟨hStopLe, hp.dvd_stop (by omega)⟩
  | @fresh stop address q pages result values hSome hAhead hNew hFits _ _ ih =>
    have hLength := List.length_pos_iff.mpr hSome
    have hLe := Page.room_le_length q address values
    have hq : Canonical size q := by
      refine canonical_newExtent hNew hSize (by omega) (fun base hMem => ?_) fun hEnd => ?_
      · refine ⟨hAhead base hMem, ?_⟩
        cases pages with
        | nil => cases hMem
        | cons p rest =>
          cases hMem
          exact (hPages p (by simp)).1
      · exact hTail hSome (by simpa [nextBase] using hEnd)
    refine List.forall_mem_cons.mpr ⟨?_, ih ?_ hPages fun hLeft _ => ?_⟩
    · rw [Canonical, Page.write_base, Page.write_stop]
      exact hq
    · rw [List.length_drop]
      omega
    · have hStopLe := Page.stop_le_of_rest hFits.base_le hFits.lt_stop hLeft
      have hLeftLength := List.length_pos_iff.mpr hLeft
      rw [List.length_drop] at hLeftLength
      exact ⟨hStopLe, hq.dvd_stop (by omega)⟩

/-! ### From the page that the search finds -/

theorem cellOf_append (front rest : List Page) (a : Nat) :
    cellOf (front ++ rest) a = (front.findSome? (·.cell? a)).getD (cellOf rest a) := by
  simp only [cellOf, List.findSome?_append]
  cases front.findSome? (·.cell? a) <;> rfl

theorem Ordered.stop_le_lastStop {pages : List Page} (hLaid : Laid pages) (hOrder : Ordered pages) :
    ∀ p ∈ pages, p.stop ≤ lastStop pages := by
  rcases List.eq_nil_or_concat pages with rfl | ⟨front, q, rfl⟩
  · simp
  · rw [List.concat_eq_append] at *
    rw [lastStop_concat]
    intro p hp
    rcases List.mem_append.mp hp with hFront | hLast
    · have hBefore := (List.pairwise_append.mp hOrder).2.2 p hFront q (by simp)
      have hq := (hLaid q (by simp)).1
      omega
    · rw [List.mem_singleton.mp hLast]

/-- The pages in front of the one that the search finds end at or below the address. -/
theorem Ordered.front_stop_le {pages : List Page} (hOrder : Ordered pages) (a : Nat) :
    ∀ p ∈ pages.take (found pages a), p.stop ≤ a := by
  intro p hp
  obtain ⟨j, hj, rfl⟩ := List.getElem_of_mem hp
  rw [List.length_take] at hj
  rw [List.getElem_take]
  rcases (found_spec pages a).1 with hZero | ⟨q, hq, hBase⟩
  · omega
  · obtain ⟨hFound, rfl⟩ := List.getElem?_eq_some_iff.mp hq
    have := List.pairwise_iff_getElem.mp hOrder j _ (by omega) hFound (by omega)
    omega

/-- None of these pages has a cell for the address or for a later one. -/
theorem Ordered.findSome?_front {pages : List Page} (hOrder : Ordered pages) {a b : Nat}
    (h : a ≤ b) : (pages.take (found pages a)).findSome? (·.cell? b) = none := by
  rw [List.findSome?_eq_none_iff]
  intro p hp
  have := hOrder.front_stop_le a p hp
  exact Page.cell?_eq_none (Or.inr (by omega))

theorem lastStop_le {pages : List Page} {a : Nat} (h : ∀ p ∈ pages, p.stop ≤ a) :
    lastStop pages ≤ a := by
  rcases List.eq_nil_or_concat pages with rfl | ⟨front, q, rfl⟩
  · exact Nat.zero_le a
  · rw [List.concat_eq_append] at *
    rw [lastStop_concat]
    exact h q (by simp)

theorem clearOf_lastStop {size start bound : Nat} {front rest : List Page}
    (h : ((front ++ rest).map Page.extent).IsChain (ClearOf size start bound)) :
    (⟨lastStop front, 0⟩ :: rest.map Page.extent).IsChain (ClearOf size start bound) := by
  rw [List.map_append] at h
  rcases List.eq_nil_or_concat front with rfl | ⟨front', q, rfl⟩
  · exact h.cons fun _ _ _ => Nat.zero_le _
  · rw [List.concat_eq_append, List.map_append, List.append_assoc] at h
    rw [List.concat_eq_append, lastStop_concat]
    exact clearOf_behind h.right_of_append

section Walk

variable {size address : Nat} {pages result : List Page} {values : List Int64}

theorem Walk.laid (h : Walk size pages address values result) (hLaid : Laid pages) :
    Laid (rebuilt pages address result) := by
  intro p hp
  rcases List.mem_append.mp hp with hFront | hResult
  · exact hLaid p (List.mem_of_mem_take hFront)
  · exact Spread.laid h (fun q hq => hLaid q (List.mem_of_mem_drop hq)) p hResult

/-- **The walk of a store leaves the right value with the first page that has the address.** -/
theorem Walk.cellOf_eq (h : Walk size pages address values result) (hLaid : Laid pages)
    (hOrder : Ordered pages) (a : Nat) :
    cellOf (rebuilt pages address result) a = overlay address values (cellOf pages) a := by
  have hRest : Laid (pages.drop (found pages address)) := fun p hp =>
    hLaid p (List.mem_of_mem_drop hp)
  have hOrderRest : Ordered (pages.drop (found pages address)) :=
    hOrder.sublist (List.drop_sublist _ _)
  have hSplit : cellOf pages a = ((pages.take (found pages address)).findSome? (·.cell? a)).getD
      (cellOf (pages.drop (found pages address)) a) := by
    rw [← cellOf_append, List.take_append_drop]
  rw [rebuilt, cellOf_append, Spread.cellOf_eq h hRest hOrderRest]
  by_cases hLow : a < address
  · rw [overlay_of_lt hLow, overlay_of_lt hLow, hSplit]
  · have hNone := hOrder.findSome?_front (Nat.le_of_not_lt hLow)
    rw [hNone, Option.getD_none]
    refine overlay_congr ?_ _ _
    rw [hSplit, hNone, Option.getD_none]

/-- **A store that is clear of all holes keeps the pages ordered.** -/
theorem Walk.ordered (h : Walk size pages address values result) (hSize : 0 < size)
    (hLaid : Laid pages) (hOrder : Ordered pages)
    (hClear : (pages.map Page.extent).IsChain (ClearOf size address (address + values.length))) :
    Ordered (rebuilt pages address result) := by
  have hFront : Laid (pages.take (found pages address)) := fun p hp =>
    hLaid p (List.mem_of_mem_take hp)
  have hRest : Laid (pages.drop (found pages address)) := fun p hp =>
    hLaid p (List.mem_of_mem_drop hp)
  have hStop := lastStop_le (hOrder.front_stop_le address)
  have hSplit := List.take_append_drop (found pages address) pages
  rw [← hSplit] at hOrder hClear
  obtain ⟨hOrderFront, hOrderRest, hAcross⟩ := List.pairwise_append.mp hOrder
  have hBehind : ∀ q ∈ pages.drop (found pages address),
      lastStop (pages.take (found pages address)) ≤ q.base := fun q hq =>
    lastStop_le fun p hp => hAcross p hp q hq
  obtain ⟨hOrdered, hAll⟩ := Spread.ordered h hSize (fun _ => Nat.max_eq_left hStop) rfl hRest
    hOrderRest hBehind (clearOf_lastStop hClear)
  refine List.pairwise_append.mpr ⟨hOrderFront, hOrdered, fun p hp q hq => ?_⟩
  exact Nat.le_trans (Ordered.stop_le_lastStop hFront hOrderFront p hp) (hAll q hq)

theorem Walk.canonical (h : Walk size pages address values result) (hSize : 0 < size)
    (hTop : address + values.length ≤ addressStop) (hPages : AllCanonical size pages) :
    AllCanonical size (rebuilt pages address result) := by
  intro p hp
  rcases List.mem_append.mp hp with hFront | hResult
  · exact hPages p (List.mem_of_mem_take hFront)
  · refine Spread.canonical h hSize hTop (fun q hq => hPages q (List.mem_of_mem_drop hq))
      (fun _ hEnd => ?_) p hResult
    rw [drop_found_eq_nil hEnd]
    exact ⟨Nat.zero_le _, Nat.dvd_zero _⟩

end Walk

end HullRobot.Memory
