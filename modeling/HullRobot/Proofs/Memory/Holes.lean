import HullRobot.Proofs.Memory.Contents

/-!
# Stores into holes

What a store does to the directory depends on where the pages lie and on the number of values, but
not on any cell (`Spread.relay`).  A store that is not clear of a hole makes a page there that
starts before the page in front of the hole ends.  From then on a search for the last cell of that
page finds the new page, or another one that was made by the same store, and none of them has a
value there:

* `Walk.foundCell_eq_zero`: **a store that is not clear of a hole hides the cell in front of it.**
-/

namespace HullRobot.Memory

/-! ### Only the layout counts -/

theorem Page.stop_eq_of_extent {p p' : Page} (h : p'.extent = p.extent) : p'.stop = p.stop :=
  congrArg Extent.stop h

theorem Page.base_eq_of_extent {p p' : Page} (h : p'.extent = p.extent) : p'.base = p.base :=
  congrArg Extent.base h

theorem Page.room_eq_of_extent {p p' : Page} (h : p'.extent = p.extent) (a : Nat)
    {values values' : List Int64} (hLength : values'.length = values.length) :
    p'.room a values' = p.room a values := by
  have hBase := Page.base_eq_of_extent h
  have hSize : p'.cells.size = p.cells.size := congrArg Extent.size h
  simp only [Page.room, hBase, hSize, hLength]

theorem nextBase_eq_of_extents {pages pages' : List Page}
    (h : pages'.map Page.extent = pages.map Page.extent) : nextBase pages' = nextBase pages := by
  have hHead := congrArg (fun l => (l.head?).map Extent.base) h
  simpa [nextBase, Function.comp_def] using hHead

/-- A walk can be made on every memory with the same layout, with any values of the same number. -/
theorem Spread.relay {size stop address : Nat} {pages result : List Page} {values : List Int64}
    (h : Spread size stop pages address values result) {pages' : List Page} {values' : List Int64}
    (hPages : pages'.map Page.extent = pages.map Page.extent)
    (hLength : values'.length = values.length) :
    ∃ result', Spread size stop pages' address values' result' := by
  have hNonempty : ∀ {values values' : List Int64}, values'.length = values.length →
      values ≠ [] → values' ≠ [] := by
    intro values values' hEq hSome hNil
    rw [hNil] at hEq
    exact hSome (List.length_eq_zero_iff.mp hEq.symm)
  induction h generalizing pages' values' with
  | done stop pages address =>
    obtain rfl : values' = [] := List.length_eq_zero_iff.mp hLength
    exact ⟨pages', .done _ _ _⟩
  | @pass stop address p rest result values hSome hBase hStop _ ih =>
    obtain ⟨p', rest', rfl, hp, hRest⟩ := List.map_eq_cons_iff.mp hPages
    obtain ⟨result', hLater⟩ := ih hRest hLength
    rw [← Page.stop_eq_of_extent hp] at hLater hStop
    rw [← Page.base_eq_of_extent hp] at hBase
    exact ⟨_, .pass (hNonempty hLength hSome) hBase hStop hLater⟩
  | @held stop address p rest result values hSome hBase hStop _ ih =>
    obtain ⟨p', rest', rfl, hp, hRest⟩ := List.map_eq_cons_iff.mp hPages
    have hRoom := Page.room_eq_of_extent hp address hLength
    obtain ⟨result', hLater⟩ := @ih rest' (values'.drop (p'.room address values')) hRest
      (by rw [List.length_drop, List.length_drop, hRoom, hLength])
    rw [← hRoom, ← Page.stop_eq_of_extent hp] at hLater
    rw [← Page.stop_eq_of_extent hp] at hStop
    rw [← Page.base_eq_of_extent hp] at hBase
    exact ⟨_, .held (hNonempty hLength hSome) hBase hStop hLater⟩
  | @fresh stop address q pages result values hSome hAhead hNew hFits hSize _ ih =>
    have hNext := nextBase_eq_of_extents hPages
    have hRoom := @Page.room_eq_of_extent q q rfl address values values' hLength
    obtain ⟨result', hLater⟩ := @ih pages' (values'.drop (q.room address values')) hPages
      (by rw [List.length_drop, List.length_drop, hRoom, hLength])
    rw [← hRoom] at hLater
    rw [← hNext] at hAhead hNew hFits
    exact ⟨_, .fresh (hNonempty hLength hSome) hAhead hNew hFits hSize hLater⟩

theorem Walk.relay {size address : Nat} {pages result : List Page} {values : List Int64}
    (h : Walk size pages address values result) {pages' : List Page} {values' : List Int64}
    (hPages : pages'.map Page.extent = pages.map Page.extent)
    (hLength : values'.length = values.length) :
    ∃ result', Walk size pages' address values' result' := by
  have hFound : found pages' address = found pages address := by rw [found, found, hPages]
  have hStop : lastStop (pages'.take (found pages address)) =
      lastStop (pages.take (found pages address)) := by
    have hLast := congrArg (fun l => (l.take (found pages address)).getLast?.map Extent.stop) hPages
    simp only [← List.map_take, List.getLast?_map, Option.map_map] at hLast
    exact congrArg (Option.getD · 0) hLast
  unfold Walk
  rw [hFound, hStop]
  exact Spread.relay h (by rw [List.map_drop, List.map_drop, hPages]) hLength

/-! ### Cells in front of a walk -/

/-- A walk stores no value in front of its address. -/
theorem Spread.blind {size stop address : Nat} {pages result : List Page} {values : List Int64}
    (h : Spread size stop pages address values result) {x : Nat} (hx : x < address)
    (hPages : ∀ p ∈ pages, (p.cell? x).getD 0 = 0) : ∀ p ∈ result, (p.cell? x).getD 0 = 0 := by
  induction h with
  | done => exact hPages
  | pass _ _ _ _ ih =>
    obtain ⟨hp, hRest⟩ := List.forall_mem_cons.mp hPages
    exact List.forall_mem_cons.mpr ⟨hp, ih hx hRest⟩
  | held _ hBase _ _ ih =>
    obtain ⟨hp, hRest⟩ := List.forall_mem_cons.mp hPages
    refine List.forall_mem_cons.mpr ⟨?_, ih (by omega) hRest⟩
    rw [Page.cell?_write hBase, if_neg (by omega)]
    exact hp
  | fresh _ _ hNew hFits _ _ ih =>
    refine List.forall_mem_cons.mpr ⟨?_, ih (by omega) hPages⟩
    rw [Page.cell?_write hFits.base_le, if_neg (by omega), hNew]
    exact Page.cell?_blank _ _

/-! ### Hidden cells -/

/-- A search for `x` passes the pages in front, and no page after them has a value there. -/
def Hides (x : Nat) (pages : List Page) : Prop :=
  ∃ front q rest, pages = front ++ q :: rest ∧ (∀ p ∈ front, p.base ≤ x) ∧ q.base ≤ x ∧
    ∀ p ∈ q :: rest, (p.cell? x).getD 0 = 0

theorem Hides.behind {x : Nat} {front pages : List Page} (hFront : ∀ p ∈ front, p.base ≤ x)
    (h : Hides x pages) : Hides x (front ++ pages) := by
  obtain ⟨before, q, rest, rfl, hBefore, hq, hZero⟩ := h
  refine ⟨front ++ before, q, rest, (List.append_assoc _ _ _).symm, fun p hp => ?_, hq, hZero⟩
  exact (List.mem_append.mp hp).elim (hFront p) (hBefore p)

theorem Hides.cons {x : Nat} {p : Page} {pages : List Page} (hp : p.base ≤ x) (h : Hides x pages) :
    Hides x (p :: pages) := Hides.behind (List.forall_mem_singleton.mpr hp) h

theorem Hides.foundCell_eq_zero {x : Nat} {pages : List Page} (h : Hides x pages) :
    foundCell pages x = 0 := by
  obtain ⟨front, q, rest, rfl, hFront, hq, hZero⟩ := h
  have hNext := (found_spec (front ++ q :: rest) x).2
  -- Up to the page `q` the next page starts low enough, so the search does not end before it.
  have hFar : front.length ≤ found (front ++ q :: rest) x := by
    by_contra hNear
    rcases Nat.lt_or_ge (found (front ++ q :: rest) x + 1) front.length with hIn | hOut
    · have := hNext front[found (front ++ q :: rest) x + 1]
        (by rw [List.getElem?_append_left hIn, List.getElem?_eq_getElem hIn])
      have := hFront _ (List.getElem_mem hIn)
      omega
    · have := hNext q (by
        rw [show found (front ++ q :: rest) x + 1 = front.length by omega,
          List.getElem?_append_right (Nat.le_refl _), Nat.sub_self, List.getElem?_cons_zero])
      omega
  rw [foundCell, List.getElem?_append_right hFar]
  cases hGet : (q :: rest)[found (front ++ q :: rest) x - front.length]? with
  | none => rfl
  | some p => exact hZero p (List.mem_of_getElem? hGet)

/-- A walk that enters a hole makes a page from the multiple of the page size below it. -/
theorem Spread.enter {size stop address : Nat} {p : Page} {rest result : List Page}
    {values : List Int64} (h : Spread size stop (p :: rest) address values result)
    (hSome : values ≠ []) (hAhead : address < p.base) {x : Nat} (hx : x < address)
    (hLow : address / size * size ≤ x) (hPages : ∀ q ∈ p :: rest, (q.cell? x).getD 0 = 0) :
    Hides x result := by
  have hZero := h.blind hx hPages
  cases h with
  | done => exact absurd rfl hSome
  | pass _ hBase _ _ => omega
  | held _ hBase _ _ => omega
  | fresh _ _ hNew _ _ _ =>
    refine ⟨[], _, _, rfl, by simp, ?_, hZero⟩
    rw [Page.write_base, hNew]
    exact hLow

/-- **A walk that is not clear of a hole hides the cell in front of it.** -/
theorem Spread.hides {size stop address : Nat} {pages result : List Page} {values : List Int64}
    (h : Spread size stop pages address values result) {front rest : List Page} {p p' : Page}
    (hPages : pages = front ++ p :: p' :: rest) (hLaid : Laid pages) (hOrder : Ordered pages)
    (hOpen : max address p.stop < min (address + values.length) p'.base)
    (hLow : max address p.stop / size * size < p.stop) : Hides (p.stop - 1) result := by
  have hp : p.base < p.stop := (hLaid p (by simp [hPages])).1
  have hAfter : ∀ q ∈ p' :: rest, p.stop ≤ q.base := by
    rw [hPages] at hOrder
    exact (List.pairwise_cons.mp (List.pairwise_append.mp hOrder).2.1).1
  have hBlank : ∀ q ∈ p' :: rest, (q.cell? (p.stop - 1)).getD 0 = 0 := fun q hq => by
    have := hAfter q hq
    rw [Page.cell?_eq_none (Or.inl (by omega)), Option.getD_none]
  induction h generalizing front with
  | done => simp only [List.length_nil] at hOpen; omega
  | @pass stop address q later result values hSome hBase hStop hLater ih =>
    obtain ⟨hqLaid, hRest⟩ := List.forall_mem_cons.mp hLaid
    obtain ⟨hBefore, hOrderRest⟩ := List.pairwise_cons.mp hOrder
    cases front with
    | nil =>
      obtain ⟨rfl, rfl⟩ := List.cons.inj hPages
      rw [Nat.max_eq_left hStop] at hLow hOpen
      have hEnter := hLater.enter hSome (show address < p'.base by omega)
        (show q.stop - 1 < address by omega) (by omega) hBlank
      exact hEnter.cons (by omega)
    | cons q' front =>
      obtain ⟨rfl, rfl⟩ := List.cons.inj hPages
      have hq := hBefore p (by simp)
      exact (ih rfl hRest hOrderRest hOpen hLow).cons (by omega)
  | @held stop address q later result values hSome hBase hStop hLater ih =>
    have hRest := (List.forall_mem_cons.mp hLaid).2
    obtain ⟨hBefore, hOrderRest⟩ := List.pairwise_cons.mp hOrder
    have hFull := Page.room_full hBase hStop values
    have hLe := Page.room_le_length q address values
    have hRoom := Page.add_room_le hBase hStop values
    cases front with
    | nil =>
      obtain ⟨rfl, rfl⟩ := List.cons.inj hPages
      rw [Nat.max_eq_right (Nat.le_of_lt hStop)] at hLow hOpen
      -- The values go beyond the page, so the walk goes on at its end.
      have hEnd : address + q.room address values = q.stop := by omega
      rw [hEnd] at hLater
      have hLeft : values.drop (q.room address values) ≠ [] := by
        rw [ne_eq, List.drop_eq_nil_iff]
        omega
      have hEnter := hLater.enter hLeft (show q.stop < p'.base by omega)
        (show q.stop - 1 < q.stop by omega) (by omega) hBlank
      exact hEnter.cons (by rw [Page.write_base]; omega)
    | cons q' front =>
      obtain ⟨rfl, rfl⟩ := List.cons.inj hPages
      have hq := hBefore p (by simp)
      rw [Nat.max_eq_right (by omega)] at hLow hOpen
      refine (ih rfl hRest hOrderRest ?_ ?_).cons (by rw [Page.write_base]; omega)
      · rw [Nat.max_eq_right (by omega), List.length_drop]
        omega
      · rw [Nat.max_eq_right (by omega)]
        exact hLow
  | @fresh stop address q pages result values hSome hAhead hNew hFits hSize hLater ih =>
    have hStop : address < q.stop := hFits.lt_stop
    have hLe := Page.room_le_length q address values
    have hRoom := Page.add_room_le hFits.base_le hStop values
    -- The page is made in front of `p`, or in front of a page that lies before `p`.
    have hNext : ∃ base ∈ nextBase pages, base ≤ p.base := by
      cases front with
      | nil => exact ⟨p.base, by simp [hPages], Nat.le_refl _⟩
      | cons q' front =>
        rw [hPages, List.cons_append] at hOrder
        have hBefore := (List.pairwise_cons.mp hOrder).1 p (by simp)
        have hLaid' := (hLaid q' (by simp [hPages])).1
        exact ⟨q'.base, by simp [hPages], by omega⟩
    obtain ⟨base, hMem, hBase⟩ := hNext
    have hBefore := hAhead base hMem
    have hClear : q.stop ≤ base := hFits.clear base hMem
    have hqBase : q.base ≤ address := hFits.base_le
    rw [Nat.max_eq_right (by omega)] at hLow hOpen
    refine (ih hPages hLaid hOrder ?_ ?_).cons (by rw [Page.write_base]; omega)
    · rw [Nat.max_eq_right (by omega), List.length_drop]
      omega
    · rw [Nat.max_eq_right (by omega)]
      exact hLow

/-- **A store that is not clear of a hole hides the cell in front of it.** -/
theorem Walk.foundCell_eq_zero {size address : Nat} {pages result : List Page}
    {values : List Int64} (h : Walk size pages address values result) {front rest : List Page}
    {p p' : Page} (hPages : pages = front ++ p :: p' :: rest) (hLaid : Laid pages)
    (hOrder : Ordered pages) (hOpen : max address p.stop < min (address + values.length) p'.base)
    (hLow : max address p.stop / size * size < p.stop) :
    foundCell (rebuilt pages address result) (p.stop - 1) = 0 := by
  have hp : p.base < p.stop := (hLaid p (by simp [hPages])).1
  have hAt : pages[front.length]? = some p := by simp [hPages]
  have hAt' : pages[front.length + 1]? = some p' := by simp [hPages]
  -- The search ends at `p` or in front of it, since `p'` starts after the address.
  have hFound : found pages address ≤ front.length := by
    by_contra hFar
    rcases (found_spec pages address).1 with hZero | ⟨q, hq, hBase⟩
    · omega
    · have := hOrder.base_le hLaid (show front.length + 1 ≤ found pages address by omega) hAt' hq
      omega
  have hDrop : pages.drop (found pages address) =
      front.drop (found pages address) ++ p :: p' :: rest := by
    rw [hPages, List.drop_append_of_le_length (by rw [← hPages]; exact hFound)]
  have hHides := Spread.hides h hDrop (fun q hq => hLaid q (List.mem_of_mem_drop hq))
    (hOrder.sublist (List.drop_sublist _ _)) hOpen hLow
  refine (Hides.behind (fun q hq => ?_) hHides).foundCell_eq_zero
  obtain ⟨j, hj, rfl⟩ := List.getElem_of_mem hq
  rw [List.length_take] at hj
  rw [List.getElem_take]
  have := hOrder.base_le hLaid (show j ≤ front.length by omega)
    (List.getElem?_eq_getElem (by omega)) hAt
  omega

end HullRobot.Memory
