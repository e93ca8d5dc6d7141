import HullRobot.Machine.Dump
import HullRobot.Machine.Run
import HullRobot.Proofs.Memory.Frame

/-!
# Pages that could not be made

A store enters a page into the directory and then makes its block.  If the block cannot be made the
entry stays, and the blocks behind it no longer stand at the positions of their entries.

* `perform_lacks`, `run_lacks`: **how many entries have no block**, after every history: as many as
  there were pages that could not be made since the last reset.
* `Lacks.size_eq`: with such an entry there is no size, hence no dump.
* `storeFrom_broken`, `Built.store_broken`: a store that breaks off has stored the values in
  front of the page, as a store of just these would have.
* `load_below`, `loadInto_below`, `load_behind`: what can still be read.
* `failed_page_unsettles`: all of this for a store that fails after any history.
* `failed_page_breaks_dump`: a machine that can no longer be dumped.
-/

namespace HullRobot.Memory

/-! ### Entries without a block -/

/-- So many entries of the directory have no block. -/
def Lacks (m : Memory) (n : Nat) : Prop := m.extents.size = m.blocks.size + n

/-- The operation leaves so many entries without a block, and one more if it failed for want of a
page. -/
def LacksAfter (n : Nat) (r : EStateM.Result Error Memory Unit) : Prop :=
  Lacks (leaves r) (if madePages r then n else n + 1)

/-- How many pages could not be made, if it were `n` before the operation. -/
def tally (m : Memory) (n : Nat) : Op → Nat
  | .reset => 0
  | .store address values => if madePages (m.store address values) then n else n + 1
  | .limit _ | .pageSize _ => n

/-- How many pages could not be made since the last reset, if it were `n` before the history. -/
def unmade (m : Memory) (n : Nat) : List Op → Nat
  | [] => n
  | op :: rest => unmade (leaves (m.perform op)) (m.tally n op) rest

theorem le_unmade {ops : List Op} (h : .reset ∉ ops) (m : Memory) (n : Nat) :
    n ≤ m.unmade n ops := by
  induction ops generalizing m n with
  | nil => exact Nat.le_refl n
  | cons op rest ih =>
    rw [List.mem_cons, not_or] at h
    refine Nat.le_trans ?_ (ih h.2 _ _)
    cases op with
    | reset => exact absurd rfl h.1
    | store address values =>
      rw [tally]
      split <;> omega
    | limit limit => exact Nat.le_refl n
    | pageSize size => exact Nat.le_refl n

theorem slot_lt {extents : Array Extent} {size page address : Nat}
    (h : ∀ e, slot extents size page address ≠ .fresh e) : page < extents.size := by
  unfold slot at h
  cases hGet : extents[page]? with
  | none =>
    rw [hGet] at h
    exact absurd rfl (h _)
  | some e => exact (Array.getElem?_eq_some_iff.mp hGet).1

theorem size_insertIdxIfInBounds {α : Type} {xs : Array α} {i : Nat} (h : i ≤ xs.size) (x : α) :
    (xs.insertIdxIfInBounds i x).size = xs.size + 1 := by
  obtain ⟨xs⟩ := xs
  rw [List.insertIdxIfInBounds_toArray, List.size_toArray, List.length_insertIdx_of_le_length h,
    List.size_toArray]

section Lacks

variable {m m' : Memory} {page n : Nat}

theorem Lacks.fill {offset count : Nat} {values : List Int64} (h : Lacks m n)
    (hFill : fill m page offset values = .ok count m') :
    Lacks m' n ∧ m'.extents = m.extents := by
  unfold Memory.fill at hFill
  split at hFill
  · cases hFill
  · split at hFill
    · cases hFill
    · cases hFill
      exact ⟨by simpa [Lacks] using h, rfl⟩

theorem Lacks.fill_error {offset : Nat} {values : List Int64} {e : Error} (h : Lacks m n)
    (hFill : Memory.fill m page offset values = .error e m') :
    LacksAfter n (.error e m') := by
  unfold Memory.fill at hFill
  split at hFill
  · cases hFill
    exact h
  · split at hFill
    · cases hFill
      exact h
    · cases hFill

theorem Lacks.allocate {e : Extent} (h : Lacks m n) (hPage : page ≤ m.extents.size)
    (hMake : allocate m page e = .ok () m') :
    Lacks m' n ∧ m'.extents.size = m.extents.size + 1 := by
  unfold Memory.allocate at hMake
  dsimp only at hMake
  split at hMake
  · cases hMake
  · split at hMake
    · cases hMake
    · rename_i hPlace
      cases hMake
      have hEntry := size_insertIdxIfInBounds hPage e
      have hBlock := size_insertIdxIfInBounds (Nat.le_of_not_lt hPlace) (Array.replicate e.size 0)
      unfold Lacks at h ⊢
      dsimp only
      omega

theorem Lacks.allocate_error {extent : Extent} {e : Error} (h : Lacks m n)
    (hPage : page ≤ m.extents.size) (hMake : Memory.allocate m page extent = .error e m') :
    LacksAfter n (.error e m') := by
  have hEntry := size_insertIdxIfInBounds hPage extent
  unfold Memory.allocate at hMake
  unfold Lacks at h
  dsimp only at hMake
  split at hMake
  · cases hMake
    simp only [LacksAfter, Lacks, leaves, madePages, Bool.false_eq_true, if_false]
    omega
  · split at hMake
    · cases hMake
      simp only [LacksAfter, Lacks, leaves, madePages, if_true, Array.size_push]
      omega
    · cases hMake

/-- A walk gives every entry that it makes a block, except the last one if that cannot be made. -/
theorem Lacks.storeFrom {rounds size address : Nat} {values : List Int64} (h : Lacks m n)
    (hPage : page ≤ m.extents.size) :
    LacksAfter n (storeFrom rounds m size page address values) := by
  induction rounds generalizing m page address values with
  | zero => exact h
  | succ rounds ih =>
    cases values with
    | nil => exact h
    | cons v vs =>
      rw [Memory.storeFrom]
      · cases hSlot : slot m.extents size page address with
        | pass =>
          have hLt : page < m.extents.size := slot_lt fun e he => by rw [hSlot] at he; cases he
          dsimp only
          split
          · exact ih h hLt
          · exact h
        | held extent =>
          have hLt : page < m.extents.size := slot_lt fun e he => by rw [hSlot] at he; cases he
          dsimp only
          cases hFill : Memory.fill m page (address - extent.base) (v :: vs) with
          | error e after => exact h.fill_error hFill
          | ok count after =>
            obtain ⟨hKept, hSame⟩ := h.fill hFill
            exact ih hKept (hSame ▸ hLt)
        | fresh extent =>
          dsimp only
          cases hMake : Memory.allocate m page extent with
          | error e after => exact h.allocate_error hPage hMake
          | ok u made =>
            obtain ⟨hMade, hSize⟩ := h.allocate hPage hMake
            dsimp only
            cases hFill : Memory.fill made page (address - extent.base) (v :: vs) with
            | error e after => exact hMade.fill_error hFill
            | ok count after =>
              obtain ⟨hKept, hSame⟩ := hMade.fill hFill
              refine ih hKept ?_
              rw [hSame, hSize]
              omega
      · exact List.cons_ne_nil v vs

theorem Lacks.store (h : Lacks m n) (address : Int64) (values : List Int64) :
    LacksAfter n (m.store address values) := by
  unfold Memory.store
  split
  · exact h
  · split
    · exact h
    · have hLocate := locate_le m.extents address.toNatClampNeg
      dsimp only
      split
      · exact Lacks.storeFrom (m := { m with pageSize := defaultPageSize }) h hLocate
      · exact h.storeFrom hLocate

/-- **What an operation does to the number of entries without a block.** -/
theorem perform_lacks (h : Lacks m n) (op : Op) : Lacks (leaves (m.perform op)) (m.tally n op) := by
  cases op with
  | store address values => exact h.store address values
  | reset => rfl
  | limit limit => exact h
  | pageSize size => exact h

theorem run_lacks {ops : List Op} (h : Lacks m n) : Lacks (m.run ops) (m.unmade n ops) := by
  induction ops generalizing m n with
  | nil => exact h
  | cons op rest ih => exact ih (perform_lacks h op)

/-- **With an entry that has no block there is no size.** -/
theorem Lacks.size_eq (h : Lacks m n) (hn : 0 < n) :
    m.size = .error (.outOfRange (m.extents.size - 1) m.blocks.size) := by
  unfold Lacks at h
  unfold size
  cases hLast : m.extents.back? with
  | none =>
    rw [Array.back?_eq_none_iff] at hLast
    rw [hLast] at h
    simp at h
    omega
  | some last =>
    simp only [Array.getElem?_eq_none (show m.blocks.size ≤ m.extents.size - 1 by omega)]

end Lacks

/-! ### Where a store breaks off -/

theorem effectiveSize_effectiveSize (pageSize : Int64) :
    effectiveSize (effectiveSize pageSize) = effectiveSize pageSize := by
  unfold effectiveSize
  by_cases h : pageSize ≤ 0
  · rw [if_pos h]
    decide
  · rw [if_neg h, if_neg h]

/-- The memory with these pages, and between them an entry without a block. -/
def gapped (pageSize limit : Int64) (front : List Page) (e : Extent) (rest : List Page) : Memory :=
  { build pageSize limit (front ++ rest) with
    extents := (front.map Page.extent ++ e :: rest.map Page.extent).toArray }

theorem gapped_eq (pageSize limit : Int64) (front : List Page) (e : Extent) (rest : List Page) :
    gapped pageSize limit front e rest =
      { build pageSize limit (front ++ rest) with
        extents := (build pageSize limit (front ++ rest)).extents.insertIdxIfInBounds
          front.length e } := by
  unfold gapped
  simp only [build, List.insertIdxIfInBounds_toArray, List.map_append]
  rw [← List.length_map Page.extent, insertIdx_between]

theorem Spread.eq_of_nil {size stop address : Nat} {pages result : List Page}
    (h : Spread size stop pages address [] result) : result = pages := by
  cases h with
  | done => rfl
  | pass hSome => exact absurd rfl hSome
  | held hSome => exact absurd rfl hSome
  | fresh hSome => exact absurd rfl hSome

/-- The walk over `pages` stores `stored` and has `before` behind it and `after` ahead of it then.
The page `e` for the first of the other values is too large. -/
structure Breaks (size stop : Nat) (pages : List Page) (address : Nat) (values : List Int64)
    (before after : List Page) (stored lost : List Int64) (e : Extent) : Prop where
  values_eq : values = stored ++ lost
  lost_ne : lost ≠ []
  spread : Spread size stop pages address stored (before ++ after)
  base_le : e.base ≤ address + stored.length
  lt_stop : address + stored.length < e.stop
  large : largestBlock < e.size

section Broken

variable {pageSize limit : Int64} {rounds size stop address : Nat} {p : Page}
  {front rest before after : List Page} {values stored lost : List Int64} {e : Extent} {m' : Memory}

/-- A page that has not room for all values takes the same ones of any that begin like them. -/
theorem Page.room_cut (hRest : values.drop (p.room address values) ≠ []) (more : List Int64) :
    p.room address (values.take (p.room address values) ++ more) = p.room address values := by
  have hShort : p.room address values < values.length := by
    simpa [List.drop_eq_nil_iff] using hRest
  simp only [Page.room, List.length_append, List.length_take] at hShort ⊢
  omega

theorem Page.write_cut (hRest : values.drop (p.room address values) ≠ []) (more : List Int64) :
    p.write address (values.take (p.room address values) ++ more) = p.write address values := by
  have hLength : (values.take (p.room address values)).length = p.room address values := by
    rw [List.length_take, Nat.min_eq_left (p.room_le_length address values)]
  unfold Page.write
  rw [Page.room_cut hRest]
  congr 2
  rw [List.take_append_of_le_length (Nat.le_of_eq hLength.symm), List.take_of_length_le]
  exact Nat.le_of_eq hLength

theorem Breaks.pass (hBase : p.base ≤ address) (hStop : p.stop ≤ address)
    (h : Breaks size p.stop rest address values before after stored lost e) :
    Breaks size stop (p :: rest) address values (p :: before) after stored lost e := by
  refine { h with spread := ?_ }
  by_cases hSome : stored = []
  · subst hSome
    have hSame := h.spread.eq_of_nil
    rw [List.cons_append, hSame]
    exact .done _ _ _
  · exact .pass hSome hBase hStop h.spread

/-- A walk that breaks off behind a page stores what goes into the page as well. -/
theorem Breaks.behind {pages : List Page} (hBase : p.base ≤ address) (hStop : address < p.stop)
    (hSpread : ∀ all result, all ≠ [] →
      Spread size p.stop rest (address + p.room address all) (all.drop (p.room address all))
        result →
      Spread size stop pages address all (p.write address all :: result))
    (h : Breaks size p.stop rest (address + p.room address values)
      (values.drop (p.room address values)) before after stored lost e) :
    Breaks size stop pages address values (p.write address values :: before) after
      (values.take (p.room address values) ++ stored) lost e := by
  have hLength : (values.take (p.room address values)).length = p.room address values := by
    rw [List.length_take, Nat.min_eq_left (p.room_le_length address values)]
  have hRest : values.drop (p.room address values) ≠ [] := by
    rw [h.values_eq]
    exact fun hNil => h.lost_ne (List.append_eq_nil_iff.mp hNil).2
  have hPos : 0 < p.room address values := by
    refine Page.room_pos hBase hStop fun hNone => hRest ?_
    rw [hNone, List.drop_nil]
  have hPlace : address + (values.take (p.room address values) ++ stored).length =
      address + p.room address values + stored.length := by
    rw [List.length_append, hLength, Nat.add_assoc]
  refine ⟨?_, h.lost_ne, ?_, hPlace ▸ h.base_le, hPlace ▸ h.lt_stop, h.large⟩
  · rw [List.append_assoc, ← h.values_eq, List.take_append_drop]
  · rw [List.cons_append, ← Page.write_cut hRest stored]
    refine hSpread _ _ (fun hNil => ?_) ?_
    · have hNone := congrArg List.length hNil
      rw [List.length_append, hLength, List.length_nil] at hNone
      omega
    · rw [Page.room_cut hRest, List.drop_append_of_le_length (Nat.le_of_eq hLength.symm),
        List.drop_of_length_le (Nat.le_of_eq hLength), List.nil_append]
      exact h.spread

theorem storeFrom_unmade (hSome : values ≠ []) (hAhead : ∀ base ∈ nextBase rest, address < base)
    (hLarge : largestBlock < (newExtent size (lastStop front) (nextBase rest) address).size) :
    storeFrom (rounds + 1) (build pageSize limit (front ++ rest)) size front.length address values =
      .error (.crash .allocation) (gapped pageSize limit front
        (newExtent size (lastStop front) (nextBase rest) address) rest) := by
  rw [storeFrom, slot_fresh hAhead]
  · simp only [allocate, if_pos hLarge]
    rw [← gapped_eq]
  · exact hSome

/-- **Where a walk breaks off**: with all values in front of the page stored, and the page
entered. -/
theorem storeFrom_broken (hSize : 0 < size) (hTop : address + values.length ≤ addressStop)
    (hTail : values ≠ [] → rest = [] → lastStop front ≤ address)
    (h : storeFrom rounds (build pageSize limit (front ++ rest)) size front.length address values =
      .error (.crash .allocation) m') :
    ∃ before after stored lost e,
      Breaks size (lastStop front) rest address values before after stored lost e ∧
        m' = gapped pageSize limit (front ++ before) e after := by
  induction rounds generalizing front rest address values with
  | zero =>
    rw [storeFrom] at h
    cases h
  | succ rounds ih =>
    by_cases hSome : values = []
    · subst hSome
      rw [storeFrom] at h
      · cases h
      · exact Nat.succ_ne_zero rounds
    have hLength := List.length_pos_iff.mpr hSome
    -- What the rest of the walk does, once the page `p` has taken its values.
    have hAfter : ∀ (p : Page) (later : List Page), p.base ≤ address → address < p.stop →
        storeFrom rounds (build pageSize limit (front ++ [p.write address values] ++ later)) size
          (front ++ [p.write address values]).length (address + p.room address values)
          (values.drop (p.room address values)) = .error (.crash .allocation) m' →
        (∀ all result, all ≠ [] →
          Spread size p.stop later (address + p.room address all)
            (all.drop (p.room address all)) result →
          Spread size (lastStop front) rest address all (p.write address all :: result)) →
        ∃ before after stored lost e,
          Breaks size (lastStop front) rest address values before after stored lost e ∧
            m' = gapped pageSize limit (front ++ before) e after := by
      intro p later hBase hStop hRound hSpread
      have hLe := Page.room_le_length p address values
      obtain ⟨before, after, stored, lost, e, hBreaks, hGapped⟩ := ih
        (by rw [List.length_drop]; omega)
        (fun hRest _ => by
          rw [lastStop_concat, Page.write_stop]
          exact Page.stop_le_of_rest hBase hStop hRest) hRound
      rw [lastStop_concat, Page.write_stop] at hBreaks
      refine ⟨_, after, _, lost, e, hBreaks.behind hBase hStop hSpread, ?_⟩
      rw [hGapped, List.append_assoc, List.singleton_append]
    by_cases hAhead : ∀ base ∈ nextBase rest, address < base
    · obtain ⟨q, hNew⟩ :
          ∃ q, q = Page.blank (newExtent size (lastStop front) (nextBase rest) address) := ⟨_, rfl⟩
      have hFits : Fits (lastStop front) (nextBase rest) address q.extent := by
        rw [hNew, Page.extent_blank]
        refine newExtent_fits hSize (by omega) hAhead fun hEnd => hTail hSome ?_
        simpa [nextBase] using hEnd
      have hStop : address < q.stop := hFits.lt_stop
      rcases storeFrom_fresh hSome hAhead hNew hFits.base_le hStop with
        ⟨hLarge, _⟩ | ⟨hBlock, hRound⟩
      · have hEntry : newExtent size (lastStop front) (nextBase rest) address = q.extent := by
          rw [hNew, Page.extent_blank]
        refine ⟨[], rest, [], values, q.extent, ⟨rfl, hSome, .done _ _ _, ?_, ?_, hLarge⟩, ?_⟩
        · exact hFits.base_le
        · exact hFits.lt_stop
        · rw [storeFrom_unmade hSome hAhead (hEntry ▸ hLarge), hEntry] at h
          cases h
          rw [List.append_nil]
      · rw [hRound] at h
        exact hAfter q rest hFits.base_le hStop h fun all result hAll =>
          .fresh hAll hAhead hNew hFits hBlock
    · cases rest with
      | nil => simp at hAhead
      | cons p later =>
        have hBase : p.base ≤ address := by simpa using hAhead
        by_cases hStop : p.stop ≤ address
        · rw [storeFrom_pass hSome hBase hStop] at h
          obtain ⟨before, after, stored, lost, e, hBreaks, hGapped⟩ :=
            ih hTop (fun _ _ => by rw [lastStop_concat]; exact hStop) h
          rw [lastStop_concat] at hBreaks
          refine ⟨_, after, _, lost, e, hBreaks.pass hBase hStop, ?_⟩
          rw [hGapped, List.append_assoc, List.singleton_append]
        · have hInside : address < p.stop := by omega
          rw [storeFrom_held hSome hBase hInside] at h
          exact hAfter p later hBase hInside h fun all result hAll => .held hAll hBase hInside

/-- **A store that fails for want of a page** has stored the values in front of the page, as a store
of just these does, and has entered the page. -/
theorem Built.store_broken {m : Memory} {pages : List Page} {address : Int64} (h : Built m pages)
    (hFailed : m.store address values = .error (.crash .allocation) m') :
    ∃ front rest stored lost e, values = stored ++ lost ∧ lost ≠ [] ∧
      { m with pageSize := effectiveSize m.pageSize }.store address stored =
        .ok () (build (effectiveSize m.pageSize) m.limit (front ++ rest)) ∧
      m' = gapped (effectiveSize m.pageSize) m.limit front e rest ∧
      (e.base ≤ address.toNatClampNeg + stored.length ∧
        address.toNatClampNeg + stored.length < e.stop) ∧ largestBlock < e.size := by
  have hSome : values ≠ [] := fun hNone => by
    subst hNone
    cases hFailed
  have hAccepts : Accepts m.limit address values.length := by
    refine Decidable.byContradiction fun hRefused => ?_
    obtain ⟨fault, hFault⟩ := store_fault hSome hRefused
    rw [hFault] at hFailed
    cases hFailed
  have hNat := toNat_eq_toInt hAccepts.1
  have hTop := hAccepts.2.1
  rw [h.eq_build, store_eq_storeFrom hSome hAccepts] at hFailed
  obtain ⟨before, after, stored, lost, e, hBreaks, hGapped⟩ :=
    storeFrom_broken (pageCells_pos _) (by omega)
      (fun _ hEnd => by rw [drop_found_eq_nil hEnd]; exact Nat.zero_le _) hFailed
  refine ⟨pages.take (found pages address.toNatClampNeg) ++ before, after, stored, lost, e,
    hBreaks.values_eq, hBreaks.lost_ne, ?_, hGapped, ⟨hBreaks.base_le, hBreaks.lt_stop⟩,
    hBreaks.large⟩
  have hMemory : { m with pageSize := effectiveSize m.pageSize } =
      build (effectiveSize m.pageSize) m.limit pages := by
    rw [h.eq_build]
    rfl
  rw [hMemory, List.append_assoc]
  by_cases hNone : stored = []
  · subst hNone
    rw [store_nil, hBreaks.spread.eq_of_nil, List.take_append_drop]
  · have hPart : Accepts m.limit address stored.length := by
      have hLength := congrArg List.length hBreaks.values_eq
      rw [List.length_append] at hLength
      exact ⟨hAccepts.1, by omega, hAccepts.2.2.imp_right fun hLimit => by omega⟩
    have hWalk : Walk (pageCells (effectiveSize m.pageSize)) pages address.toNatClampNeg stored
        (before ++ after) := by
      rw [pageCells_effectiveSize]
      exact hBreaks.spread
    rw [hWalk.store_eq hNone hPart, effectiveSize_effectiveSize]
    rfl

end Broken

/-! ### What can still be read -/

section Read

variable {near far : List Extent} {a : Nat}

theorem reaches_near (hFar : ∀ e ∈ far, a < e.base) (i : Nat) :
    reaches (near ++ far).toArray i a = reaches near.toArray i a := by
  unfold reaches
  rw [List.getElem?_toArray, List.getElem?_toArray]
  by_cases hNear : i < near.length
  · rw [List.getElem?_append_left hNear]
  · have hNone : near[i]? = none := List.getElem?_eq_none (by omega)
    rw [List.getElem?_append_right (by omega), hNone]
    cases hGet : far[i - near.length]? with
    | none => rfl
    | some e => exact decide_eq_false (Nat.not_le.mpr (hFar e (List.mem_of_getElem? hGet)))

/-- What lies above the address does not matter for the search. -/
theorem locate_near (hOrder : InOrder (near ++ far).toArray) (hFar : ∀ e ∈ far, a < e.base) :
    locate (near ++ far).toArray a = locate near.toArray a := by
  obtain ⟨hFound, hBehind⟩ := locate_spec near.toArray a
  rw [← reaches_near hFar] at hFound hBehind
  exact hOrder.ascending.locate_eq hFound hBehind

/-- Pages behind the buffer are not looked at. -/
theorem copyPages_near {blocks : Array (Array Int64)} {origin page filled : Nat}
    {buffer : Array Int64} (hFar : ∀ e ∈ far, origin + buffer.size ≤ e.base) :
    copyPages blocks origin (near ++ far) page filled buffer =
      copyPages blocks origin near page filled buffer := by
  induction near generalizing page filled buffer with
  | nil =>
    cases far with
    | nil => rfl
    | cons e rest => exact if_pos (Or.inr (hFar e (List.mem_cons_self ..)))
  | cons e rest ih =>
    rw [List.cons_append, copyPages, copyPages]
    dsimp only
    split
    · rfl
    · cases blocks[page]? with
      | none => rfl
      | some block => exact ih (by simpa only [size_overwrite] using hFar)

variable {pageSize limit : Int64} {front rest : List Page} {e : Extent}

/-- From the page on nothing starts below it, whether it is there or not. -/
theorem base_le_of_inOrder (h : InOrder (gapped pageSize limit front e rest).extents) :
    ∀ f ∈ e :: rest.map Page.extent, e.base ≤ f.base := by
  intro f hf
  rcases List.mem_cons.mp hf with rfl | hRest
  · exact Nat.le_refl _
  · have hStop := (List.pairwise_cons.mp (List.pairwise_append.mp h).2.1).1 f hRest
    simp only [Extent.stop] at hStop
    omega

theorem inOrder_build (h : InOrder (gapped pageSize limit front e rest).extents) :
    InOrder (front.map Page.extent ++ rest.map Page.extent).toArray :=
  List.Pairwise.sublist ((List.sublist_cons_self e _).append_left _) h

/-- **Below the page loads are those of the memory without it.** -/
theorem load_below (h : InOrder (gapped pageSize limit front e rest).extents) {a : Int64}
    (ha : a.toNatClampNeg < e.base) :
    (gapped pageSize limit front e rest).load a =
      (build pageSize limit (front ++ rest)).load a := by
  have hBase := base_le_of_inOrder h
  have hGapped := locate_near h fun f hf => Nat.lt_of_lt_of_le ha (hBase f hf)
  have hBuild := locate_near (inOrder_build h) fun f hf =>
    Nat.lt_of_lt_of_le ha (hBase f (List.mem_cons_of_mem e hf))
  unfold load
  simp only [gapped, build, List.map_append]
  rw [hGapped, hBuild]
  cases checkRange limit .load a 1 with
  | error f => rfl
  | ok u =>
    cases front with
    | nil =>
      -- The search ends at the first entry, and that starts above the address.
      cases rest with
      | nil => rfl
      | cons p later =>
        have hp : ¬p.base ≤ a.toNatClampNeg := by
          have := hBase p.extent (by simp)
          rw [Page.extent_base] at this
          omega
        have hFirst : locate (([] : List Page).map Page.extent).toArray a.toNatClampNeg = 0 := rfl
        rw [hFirst]
        simp [hp, Nat.not_le.mpr ha]
    | cons p later =>
      have hLt : locate ((p :: later).map Page.extent).toArray a.toNatClampNeg <
          ((p :: later).map Page.extent).length := locate_lt (by simp) _
      simp only [List.getElem?_toArray, List.getElem?_append_left hLt]

/-- **Below the page ranges are those of the memory without it.** -/
theorem loadInto_below (h : InOrder (gapped pageSize limit front e rest).extents) {a : Int64}
    {buffer : Array Int64} (ha : a.toNatClampNeg + buffer.size ≤ e.base) :
    (gapped pageSize limit front e rest).loadInto a buffer =
      (build pageSize limit (front ++ rest)).loadInto a buffer := by
  have hBase := base_le_of_inOrder h
  unfold loadInto
  by_cases hEmpty : buffer.isEmpty = true
  · rw [if_pos hEmpty, if_pos hEmpty]
  have hSize : 0 < buffer.size := by
    simp only [Array.isEmpty_iff_size_eq_zero] at hEmpty
    omega
  have hGapped := locate_near (a := a.toNatClampNeg) h fun f hf => by
    have := hBase f hf
    omega
  have hBuild := locate_near (a := a.toNatClampNeg) (inOrder_build h) fun f hf => by
    have := hBase f (List.mem_cons_of_mem e hf)
    omega
  have hLe := locate_le (front.map Page.extent).toArray a.toNatClampNeg
  rw [List.size_toArray] at hLe
  simp only [gapped, build, List.map_append, if_neg hEmpty]
  rw [hGapped, hBuild, List.drop_append_of_le_length hLe, List.drop_append_of_le_length hLe,
    copyPages_near fun f hf => Nat.le_trans ha (hBase f hf),
    copyPages_near fun f hf => Nat.le_trans ha (hBase f (List.mem_cons_of_mem e hf))]

/-- **From the last entry on there is nothing to load.** -/
theorem Lacks.load_behind {m : Memory} {n : Nat} (h : Lacks m n) (hn : 0 < n)
    (hOrder : InOrder m.extents) {a : Int64} {last : Extent} (hLast : m.extents.back? = some last)
    (hAccepts : Accepts m.limit a 1) (ha : last.base ≤ a.toNatClampNeg) :
    m.load a = if m.blocks.isEmpty then .ok 0
      else .error (.crash (.outOfRange (m.extents.size - 1) m.blocks.size)) := by
  unfold Lacks at h
  have hGet : m.extents[m.extents.size - 1]? = some last := by rw [← hLast, Array.back?]
  have hFound : locate m.extents a.toNatClampNeg = m.extents.size - 1 := by
    refine hOrder.ascending.locate_eq (Or.inr (reaches_iff.mpr ⟨last, hGet, ha⟩)) ?_
    rw [Memory.reaches, Array.getElem?_eq_none (by omega)]
  unfold load
  rw [checkRange_ok_iff.mpr hAccepts]
  dsimp only
  rw [hFound, Array.getElem?_eq_none (show m.blocks.size ≤ m.extents.size - 1 by omega),
    Int.natCast_sub (by omega)]
  split
  · rfl
  · cases m.extents[m.extents.size - 1]? <;> rfl

end Read

/-! ### The whole store -/

theorem eq_error_of_not_made {r : EStateM.Result Error Memory Unit} (h : madePages r = false) :
    r = .error (.crash .allocation) (leaves r) := by
  unfold madePages at h
  split at h
  · rfl
  · cases h

theorem unmade_eq_zero {ops : List Op} {m : Memory} (h : Allocates m ops) : m.unmade 0 ops = 0 := by
  induction ops generalizing m with
  | nil => rfl
  | cons op rest ih =>
    have hNone : m.tally 0 op = 0 := by
      cases op with
      | store address values => exact if_pos h.1
      | reset => rfl
      | limit limit => rfl
      | pageSize size => rfl
    rw [unmade, hNone]
    exact ih h.2

theorem Lacks.size_ok {m : Memory} (h : Lacks m 0) : ∃ size, m.size = .ok size := by
  unfold Lacks at h
  unfold size
  cases hLast : m.extents.back? with
  | none => exact ⟨0, rfl⟩
  | some last =>
    have hGet : m.extents[m.extents.size - 1]? = some last := by rw [← hLast, Array.back?]
    have hLt := (Array.getElem?_eq_some_iff.mp hGet).1
    have hBlock : m.extents.size - 1 < m.blocks.size := by omega
    rw [Array.getElem?_eq_getElem hBlock]
    exact ⟨_, rfl⟩

theorem dump_of_size_error {m : Machine} {crash : Crash} (h : m.memory.size = .error crash)
    (layout : Machine.Layout) : m.dump layout = .error crash := by
  rw [Machine.dump, Machine.dumpLines, h]
  rfl

/-- **A store that fails for want of a page unsettles the memory for good.**  Whatever was done to
the memory before and is done to it after, up to a reset, the directory is longer than the blocks,
there is no size, and no machine with the memory can be dumped.

If no store failed so before, the values in front of the page are stored, as a store of just these
would have done it, and the directory has one entry more than it would have then.  If it is ordered,
what lies below that entry can still be read, and from its last entry on a load crashes. -/
theorem failed_page_unsettles (pageSize limit : Int64) (ops : List Op) (address : Int64)
    (values : List Int64) (m' : Memory)
    (hFailed : (run { pageSize, limit } ops).store address values =
      .error (.crash .allocation) m') :
    let m := run { pageSize, limit } ops
    (∀ rest, .reset ∉ rest →
      let later := m'.run rest
      let crash := Crash.outOfRange (later.extents.size - 1) later.blocks.size
      later.blocks.size < later.extents.size ∧ later.size = .error crash ∧
        ∀ machine : Machine, machine.memory = later →
          ∀ layout, machine.dump layout = .error crash) ∧
    (Allocates { pageSize, limit } ops → (∃ size, m.size = .ok size) ∧
      ∃ stored lost m₁ k e, values = stored ++ lost ∧ lost ≠ [] ∧
        { m with pageSize := effectiveSize m.pageSize }.store address stored = .ok () m₁ ∧
        m' = { m₁ with extents := m₁.extents.insertIdxIfInBounds k e } ∧ k ≤ m₁.extents.size ∧
        (e.base ≤ address.toNatClampNeg + stored.length ∧
          address.toNatClampNeg + stored.length < e.stop) ∧ largestBlock < e.size ∧
        (InOrder m'.extents →
          (∀ a, a.toNatClampNeg < e.base → m'.load a = m₁.load a) ∧
          (∀ a buffer, a.toNatClampNeg + buffer.size ≤ e.base →
            m'.loadInto a buffer = m₁.loadInto a buffer) ∧
          ∀ a last, m'.extents.back? = some last → last.base ≤ a.toNatClampNeg →
            Accepts m'.limit a 1 → m'.load a = if m'.blocks.isEmpty then .ok 0
              else .error (.crash (.outOfRange (m'.extents.size - 1) m'.blocks.size)))) := by
  intro m
  have hNone : Lacks { pageSize, limit } 0 := rfl
  have hBefore : Lacks m (unmade { pageSize, limit } 0 ops) := run_lacks hNone
  have hAfter : Lacks m' (unmade { pageSize, limit } 0 ops + 1) := by
    have hStore := hBefore.store address values
    rw [hFailed] at hStore
    exact hStore
  refine ⟨fun rest hReset => ?_, fun hMade => ⟨?_, ?_⟩⟩
  · have hLater : Lacks (m'.run rest) _ := run_lacks hAfter
    have hSome := le_unmade hReset m' (unmade { pageSize, limit } 0 ops + 1)
    have hSize := hLater.size_eq (by omega)
    refine ⟨?_, hSize, fun machine hMemory => dump_of_size_error (hMemory ▸ hSize)⟩
    unfold Lacks at hLater
    omega
  · rw [unmade_eq_zero hMade] at hBefore
    exact hBefore.size_ok
  · have hEmpty : Built { pageSize, limit } [] := ⟨rfl, by simp [Laid]⟩
    obtain ⟨pages, hBuilt⟩ := hEmpty.run hMade
    obtain ⟨front, rest, stored, lost, e, hValues, hLost, hStored, hGapped, hPlace, hLarge⟩ :=
      hBuilt.store_broken hFailed
    refine ⟨stored, lost, _, front.length, e, hValues, hLost, hStored, hGapped.trans (gapped_eq ..),
      by simp [build], hPlace, hLarge, fun hOrder => ⟨fun a ha => ?_, fun a buffer ha => ?_, ?_⟩⟩
    · rw [hGapped] at hOrder ⊢
      exact load_below hOrder ha
    · rw [hGapped] at hOrder ⊢
      exact loadInto_below hOrder ha
    · exact fun a last hLast ha hAccepts =>
        hAfter.load_behind (Nat.succ_pos _) hOrder hLast hAccepts ha

/-- A store of two values, of which the first one has a page.  The page for the second one cannot be
made, since the page size has been changed. -/
theorem failed_page_unsettles_half :
    let ops : List Op := [.store 0 [1, 2], .pageSize 4611686018427387904]
    let m := run { pageSize := 2 } ops
    let m' : Memory :=
      { pageSize := 4611686018427387904, extents := #[⟨0, 2⟩, ⟨2, 4611686018427387902⟩],
        blocks := #[#[1, 7]] }
    m.store 1 [7, 8] = .error (.crash .allocation) m' ∧ Allocates { pageSize := 2 } ops ∧
      InOrder m'.extents ∧ m'.size = .error (.outOfRange 1 1) ∧
      (m'.run [.limit 9, .store 0 [5]]).size = .error (.outOfRange 1 1) ∧
      m'.load 2 = .error (.crash (.outOfRange 1 1)) ∧
      ∃ (stored lost : List Int64) (m₁ : Memory) (e : Extent), [7, 8] = stored ++ lost ∧ lost ≠ [] ∧
        m.store 1 stored = .ok () m₁ ∧ e.base ≤ 1 + stored.length ∧ 1 + stored.length < e.stop ∧
        ∀ a : Int64, a.toNatClampNeg < e.base → m'.load a = m₁.load a := by
  intro ops m m'
  have hLeft : leaves (m.store 1 [7, 8]) = m' := by decide +kernel
  have hFailed : m.store 1 [7, 8] = .error (.crash .allocation) m' := by
    rw [← hLeft]
    exact eq_error_of_not_made (by decide +kernel)
  have hMade : Allocates { pageSize := 2 } ops := by decide +kernel
  have hOrder : InOrder m'.extents := by decide
  obtain ⟨hNever, hFirst⟩ := failed_page_unsettles 2 0 ops 1 [7, 8] m' hFailed
  obtain ⟨-, stored, lost, m₁, k, e, hValues, hLost, hStored, -, -, hPlace, -, hRead⟩ :=
    hFirst hMade
  obtain ⟨hBelow, -, hBehind⟩ := hRead hOrder
  exact ⟨hFailed, hMade, hOrder, (hNever [] (by decide)).2.1,
    (hNever [.limit 9, .store 0 [5]] (by decide)).2.1.trans (by decide +kernel),
    hBehind 2 _ rfl (by decide) (by decide), stored, lost, m₁, e, hValues, hLost, hStored,
    hPlace.1, hPlace.2, hBelow⟩

/-- A machine stores into a page that cannot be made.  Its run ends with the crash, and then the
machine has no size, it cannot be dumped, and the cell that read as 0 cannot be read. -/
theorem failed_page_breaks_dump :
    let m : Machine :=
      { memory := run { pageSize := 5 }
          [.store 0 [1101, 1, 1, 1000, 99], .pageSize 4611686018427387904] }
    let out := m.run ⟨9, .canceled⟩
    out.1 = some (.crashedOn "VM" Crash.allocation.message) ∧
      out.2.memory = leaves (m.memory.store 1000 [2]) ∧
      m.memory.size = .ok 5 ∧ out.2.memory.size = .error (.outOfRange 1 1) ∧
      m.memory.load 1000 = .ok 0 ∧
      out.2.memory.load 1000 = .error (.crash (.outOfRange 1 1)) ∧
      out.2.dump {} = .error (.outOfRange 1 1) := by
  decide +kernel

end HullRobot.Memory
