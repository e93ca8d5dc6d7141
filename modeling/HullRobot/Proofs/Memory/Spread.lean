import HullRobot.Proofs.Memory.Pages

/-!
# What a store does to the pages

`storeFrom` walks over positions of the directory, and the directory grows under it.  `Spread` says
what one walk can do, page by page: pass a page that ends before the address, write into the page
that has it, or make a new page in front of the next one.  Everything about stores is proved by
induction on `Spread`.

* `newExtent_fits`: a new page has the address, and stays clear of the page after it.
* `Spread.storeFrom_eq`, `spread_or_crash`: **a walk is a `Spread`, or a page could not be made**;
  it never runs out of rounds and never leaves the directory.
* `Walk.store_eq`, `walk_or_crash`: the same for a whole store, from the page that the search finds.
-/

namespace HullRobot.Memory

/-! ### Writing into a page -/

@[simp] theorem size_overwrite (block : Array Int64) (offset : Nat) (values : List Int64) :
    (overwrite block offset values).size = block.size := by
  induction values generalizing block offset with
  | nil => rfl
  | cons v vs ih => rw [overwrite, ih, Array.size_setIfInBounds]

theorem getElem?_overwrite (block : Array Int64) (offset : Nat) (values : List Int64) (i : Nat) :
    (overwrite block offset values)[i]? =
      if offset ≤ i ∧ i < offset + values.length ∧ i < block.size then values[i - offset]?
      else block[i]? := by
  induction values generalizing block offset with
  | nil => rw [overwrite, if_neg (by simp only [List.length_nil]; omega)]
  | cons v vs ih =>
    rw [overwrite, ih, Array.size_setIfInBounds, List.length_cons]
    by_cases hHere : i = offset
    · subst hHere
      rw [if_neg (by omega)]
      by_cases hSize : i < block.size
      · rw [if_pos (by omega), Nat.sub_self, List.getElem?_cons_zero,
          Array.getElem?_setIfInBounds_self_of_lt hSize]
      · rw [if_neg (by omega), Array.getElem?_eq_none (by simpa using hSize),
          Array.getElem?_eq_none (by omega)]
    · rw [Array.getElem?_setIfInBounds_ne (Ne.symm hHere)]
      by_cases hIn : offset + 1 ≤ i ∧ i < offset + 1 + vs.length ∧ i < block.size
      · rw [if_pos hIn, if_pos (by omega), show i - offset = (i - (offset + 1)) + 1 by omega,
          List.getElem?_cons_succ]
      · rw [if_neg hIn, if_neg (by omega)]

namespace Page

def blank (e : Extent) : Page := ⟨e.base, Array.replicate e.size 0⟩

/-- How many of the values go into the page from `a` on. -/
def room (p : Page) (a : Nat) (values : List Int64) : Nat :=
  min (p.cells.size - (a - p.base)) values.length

/-- The page with values written from `a` on, as many as go into it. -/
def write (p : Page) (a : Nat) (values : List Int64) : Page :=
  { p with cells := overwrite p.cells (a - p.base) (values.take (p.room a values)) }

@[simp] theorem blank_base (e : Extent) : (blank e).base = e.base := rfl

@[simp] theorem blank_stop (e : Extent) : (blank e).stop = e.stop := by
  simp [blank, stop, Extent.stop]

@[simp] theorem extent_blank (e : Extent) : (blank e).extent = e := by simp [blank, extent]

@[simp] theorem write_base (p : Page) (a : Nat) (values : List Int64) :
    (p.write a values).base = p.base := rfl

@[simp] theorem write_stop (p : Page) (a : Nat) (values : List Int64) :
    (p.write a values).stop = p.stop := by simp [write, stop]

@[simp] theorem extent_write (p : Page) (a : Nat) (values : List Int64) :
    (p.write a values).extent = p.extent := by simp [write, extent]

theorem cell?_blank (e : Extent) (a : Nat) : ((blank e).cell? a).getD 0 = 0 := by
  by_cases hBase : e.base ≤ a
  · rw [cell?_of_le hBase, blank, Array.getElem?_replicate]
    split <;> rfl
  · rw [cell?_eq_none (Or.inl (show a < e.base by omega)), Option.getD_none]

theorem room_le_length (p : Page) (a : Nat) (values : List Int64) :
    p.room a values ≤ values.length := Nat.min_le_right _ _

theorem add_room_le {p : Page} {a : Nat} (hBase : p.base ≤ a) (hStop : a < p.stop)
    (values : List Int64) : a + p.room a values ≤ p.stop := by
  simp only [room, stop] at *
  omega

theorem room_pos {p : Page} {a : Nat} {values : List Int64} (hBase : p.base ≤ a)
    (hStop : a < p.stop) (hSome : values ≠ []) : 0 < p.room a values := by
  have := List.length_pos_iff.mpr hSome
  simp only [room, stop] at *
  omega

/-- The values run out, or the page does. -/
theorem room_full {p : Page} {a : Nat} (hBase : p.base ≤ a) (hStop : a < p.stop)
    (values : List Int64) : p.room a values = values.length ∨ a + p.room a values = p.stop := by
  simp only [room, stop] at *
  omega

/-- What is written is read back, and the other cells of the page stay. -/
theorem cell?_write {p : Page} {a : Nat} {values : List Int64} (hBase : p.base ≤ a) (x : Nat) :
    (p.write a values).cell? x =
      if a ≤ x ∧ x < a + p.room a values then values[x - a]? else p.cell? x := by
  by_cases hx : p.base ≤ x
  · rw [cell?_of_le hx, cell?_of_le (show (p.write a values).base ≤ x from hx), write_base, write,
      getElem?_overwrite, List.length_take, Nat.min_eq_left (room_le_length p a values)]
    by_cases hIn : a ≤ x ∧ x < a + p.room a values
    · rw [if_pos hIn, if_pos (by simp only [room] at hIn ⊢; omega),
        List.getElem?_take_of_lt (by omega), show x - p.base - (a - p.base) = x - a by omega]
    · rw [if_neg hIn, if_neg (by omega)]
  · rw [cell?_eq_none (Or.inl (show x < (p.write a values).base by rw [write_base]; omega)),
      if_neg (by omega), cell?_eq_none (Or.inl (by omega))]

end Page

/-! ### New pages -/

def nextBase (pages : List Page) : Option Nat := pages.head?.map Page.base

@[simp] theorem nextBase_nil : nextBase [] = none := rfl

@[simp] theorem nextBase_cons (p : Page) (rest : List Page) :
    nextBase (p :: rest) = some p.base := rfl

/-- The page that is made for an address behind a page that ends at `stop`, when the next page
starts at `next`. -/
def newExtent (size stop : Nat) (next : Option Nat) (address : Nat) : Extent :=
  match next with
  | none => tailExtent size address stop
  | some base => gapExtent size address base

/-- A page has the address, stays below the last address and clear of the page after it, and at the
end of the directory also clear of the page before it. -/
structure Fits (stop : Nat) (next : Option Nat) (address : Nat) (e : Extent) : Prop where
  base_le : e.base ≤ address
  lt_stop : address < e.stop
  stop_le : e.stop ≤ addressStop
  clear : ∀ base ∈ next, e.stop ≤ base
  tail : next = none → stop ≤ e.base

theorem base_le_address (size address : Nat) : address / size * size ≤ address :=
  Nat.div_mul_le_self address size

theorem address_lt_base_add {size : Nat} (hSize : 0 < size) (address : Nat) :
    address < address / size * size + size := Nat.lt_div_mul_add hSize

theorem newExtent_fits {size stop : Nat} {next : Option Nat} {address : Nat} (hSize : 0 < size)
    (hTop : address < addressStop) (hAhead : ∀ base ∈ next, address < base)
    (hTail : next = none → stop ≤ address) :
    Fits stop next address (newExtent size stop next address) := by
  have hLow := base_le_address size address
  have hHigh := address_lt_base_add hSize address
  cases next with
  | none =>
    have hStop := hTail rfl
    simp only [newExtent, tailExtent]
    by_cases hCut : address / size * size < stop
    · rw [if_pos hCut]
      constructor <;> simp only [clamp, Extent.stop, Option.not_mem_none, false_imp_iff,
        implies_true, forall_const] <;> omega
    · rw [if_neg hCut]
      constructor <;> simp only [clamp, Extent.stop, Option.not_mem_none, false_imp_iff,
        implies_true, forall_const] <;> omega
  | some base =>
    have hNext := hAhead base rfl
    simp only [newExtent, gapExtent]
    constructor <;> simp only [clamp, Extent.stop, Option.mem_some_iff, forall_eq', reduceCtorEq,
      false_imp_iff] <;> omega

theorem newExtent_size_le (size stop : Nat) (next : Option Nat) (address : Nat) :
    (newExtent size stop next address).size ≤ size := by
  cases next with
  | none =>
    simp only [newExtent, tailExtent]
    split <;> simp only [clamp] <;> omega
  | some base =>
    simp only [newExtent, gapExtent, clamp]
    omega

/-! ### The walk -/

/-- **What a walk does** with the pages from its position on, behind a page that ends at `stop`. -/
inductive Spread (size : Nat) : Nat → List Page → Nat → List Int64 → List Page → Prop
  | done (stop : Nat) (pages : List Page) (address : Nat) : Spread size stop pages address [] pages
  /-- The page ends before the address. -/
  | pass {stop address : Nat} {p : Page} {rest result : List Page} {values : List Int64}
      (hSome : values ≠ []) (hBase : p.base ≤ address) (hStop : p.stop ≤ address)
      (later : Spread size p.stop rest address values result) :
      Spread size stop (p :: rest) address values (p :: result)
  /-- The page has the address. -/
  | held {stop address : Nat} {p : Page} {rest result : List Page} {values : List Int64}
      (hSome : values ≠ []) (hBase : p.base ≤ address) (hStop : address < p.stop)
      (later : Spread size p.stop rest (address + p.room address values)
        (values.drop (p.room address values)) result) :
      Spread size stop (p :: rest) address values (p.write address values :: result)
  /-- The next page starts after the address, or there is none. -/
  | fresh {stop address : Nat} {q : Page} {pages result : List Page} {values : List Int64}
      (hSome : values ≠ []) (hAhead : ∀ base ∈ nextBase pages, address < base)
      (hNew : q = .blank (newExtent size stop (nextBase pages) address))
      (hFits : Fits stop (nextBase pages) address q.extent) (hSize : q.cells.size ≤ largestBlock)
      (later : Spread size q.stop pages (address + q.room address values)
        (values.drop (q.room address values)) result) :
      Spread size stop pages address values (q.write address values :: result)

def lastStop (pages : List Page) : Nat := (pages.getLast?.map Page.stop).getD 0

@[simp] theorem lastStop_concat (front : List Page) (p : Page) :
    lastStop (front ++ [p]) = p.stop := by
  simp [lastStop]

theorem slot_build (pageSize limit : Int64) (size : Nat) (front rest : List Page) (address : Nat) :
    slot (build pageSize limit (front ++ rest)).extents size front.length address =
      match rest with
      | [] => .fresh (newExtent size (lastStop front) none address)
      | p :: _ =>
        if address < p.base then .fresh (newExtent size (lastStop front) (some p.base) address)
        else if p.cells.size ≤ address - p.base then .pass
        else .held p.extent := by
  cases rest with
  | nil =>
    simp only [slot, build, List.append_nil, List.getElem?_toArray, List.getElem?_map,
      List.getElem?_eq_none (Nat.le_refl _), Option.map_none, newExtent, lastStop,
      List.back?_toArray, List.getLast?_map, Option.map_map]
    rfl
  | cons p later =>
    simp only [slot, build, List.getElem?_toArray, List.getElem?_map,
      List.getElem?_append_right (Nat.le_refl _), Nat.sub_self, List.getElem?_cons_zero,
      Option.map_some, newExtent]
    rfl

theorem slot_fresh {rest : List Page} {address : Nat}
    (hAhead : ∀ base ∈ nextBase rest, address < base) (pageSize limit : Int64) (size : Nat)
    (front : List Page) :
    slot (build pageSize limit (front ++ rest)).extents size front.length address =
      .fresh (newExtent size (lastStop front) (nextBase rest) address) := by
  rw [slot_build]
  cases rest with
  | nil => rfl
  | cons p later => exact if_pos (hAhead p.base rfl)

theorem insertIdx_between {α : Type} (front rest : List α) (x : α) :
    (front ++ rest).insertIdx front.length x = front ++ x :: rest := by
  induction front with
  | nil => rfl
  | cons y front ih => rw [List.cons_append, List.length_cons, List.insertIdx_succ_cons, ih]; rfl

theorem modify_between {α : Type} (front rest : List α) (x : α) (f : α → α) :
    (front ++ x :: rest).modify front.length f = front ++ f x :: rest := by
  induction front with
  | nil => rfl
  | cons y front ih => rw [List.cons_append, List.length_cons, List.modify_succ_cons, ih]; rfl

theorem allocate_build (pageSize limit : Int64) (front rest : List Page) (e : Extent) :
    (largestBlock < e.size ∧ ∃ m', allocate (build pageSize limit (front ++ rest)) front.length e =
        .error (.crash .allocation) m') ∨
      (e.size ≤ largestBlock ∧ allocate (build pageSize limit (front ++ rest)) front.length e =
        .ok () (build pageSize limit (front ++ .blank e :: rest))) := by
  have hInsert : ∀ {α : Type} (f : Page → α) (a : α), f (.blank e) = a →
      ((front ++ rest).map f).toArray.insertIdxIfInBounds front.length a =
        ((front ++ .blank e :: rest).map f).toArray := by
    intro α f a ha
    rw [List.insertIdxIfInBounds_toArray, List.map_append, List.map_append, List.map_cons, ha,
      ← List.length_map f, insertIdx_between]
  unfold allocate
  by_cases hSize : largestBlock < e.size
  · exact Or.inl ⟨hSize, _, if_pos hSize⟩
  · refine Or.inr ⟨by omega, ?_⟩
    have hPlace : ¬(build pageSize limit (front ++ rest)).blocks.size < front.length := by
      simp [build]
    rw [if_neg hSize, if_neg hPlace]
    simp only [build]
    rw [hInsert Page.extent e (Page.extent_blank e),
      hInsert Page.cells (Array.replicate e.size 0) rfl]

theorem fill_build {pageSize limit : Int64} {front rest : List Page} {p : Page} {address : Nat}
    (hBase : p.base ≤ address) (hStop : address < p.stop) (values : List Int64) :
    fill (build pageSize limit (front ++ p :: rest)) front.length (address - p.base) values =
      .ok (p.room address values)
        (build pageSize limit (front ++ p.write address values :: rest)) := by
  have hSize : ¬p.cells.size < address - p.base := by simp only [Page.stop] at hStop; omega
  simp only [fill, build, List.getElem?_toArray, List.getElem?_map,
    List.getElem?_append_right (Nat.le_refl _), Nat.sub_self, List.getElem?_cons_zero,
    Option.map_some, if_neg hSize]
  rw [List.modify_toArray]
  simp only [List.map_append, List.map_cons, Page.extent_write]
  rw [← List.length_map Page.cells, modify_between]
  rfl

/-! ### One round of a walk -/

section Rounds

variable {pageSize limit : Int64} {rounds size address : Nat} {front rest : List Page} {p : Page}
  {values : List Int64}

theorem storeFrom_pass (hSome : values ≠ []) (hBase : p.base ≤ address) (hStop : p.stop ≤ address) :
    storeFrom (rounds + 1) (build pageSize limit (front ++ p :: rest)) size front.length address
        values =
      storeFrom rounds (build pageSize limit (front ++ [p] ++ rest)) size (front ++ [p]).length
        address values := by
  have hSlot := slot_build pageSize limit size front (p :: rest) address
  have hSize : p.cells.size ≤ address - p.base := by simp only [Page.stop] at hStop; omega
  have hBlock : front.length < (build pageSize limit (front ++ p :: rest)).blocks.size := by
    simp [build]
  simp only [if_neg (Nat.not_lt.mpr hBase), if_pos hSize] at hSlot
  rw [storeFrom, hSlot]
  · simp only [if_pos hBlock]
    simp
  · exact hSome

theorem storeFrom_held (hSome : values ≠ []) (hBase : p.base ≤ address) (hStop : address < p.stop) :
    storeFrom (rounds + 1) (build pageSize limit (front ++ p :: rest)) size front.length address
        values =
      storeFrom rounds (build pageSize limit (front ++ [p.write address values] ++ rest)) size
        (front ++ [p.write address values]).length (address + p.room address values)
        (values.drop (p.room address values)) := by
  have hSlot := slot_build pageSize limit size front (p :: rest) address
  have hSize : ¬p.cells.size ≤ address - p.base := by simp only [Page.stop] at hStop; omega
  simp only [if_neg (Nat.not_lt.mpr hBase), if_neg hSize] at hSlot
  rw [storeFrom, hSlot]
  · simp only [Page.extent_base]
    rw [fill_build hBase hStop]
    simp
  · exact hSome

theorem storeFrom_fresh {q : Page} (hSome : values ≠ [])
    (hAhead : ∀ base ∈ nextBase rest, address < base)
    (hNew : q = .blank (newExtent size (lastStop front) (nextBase rest) address))
    (hBase : q.base ≤ address) (hStop : address < q.stop) :
    (largestBlock < q.cells.size ∧
      ∃ m', storeFrom (rounds + 1) (build pageSize limit (front ++ rest)) size front.length address
        values = .error (.crash .allocation) m') ∨
    q.cells.size ≤ largestBlock ∧
      storeFrom (rounds + 1) (build pageSize limit (front ++ rest)) size front.length address
          values =
        storeFrom rounds (build pageSize limit (front ++ [q.write address values] ++ rest)) size
          (front ++ [q.write address values]).length (address + q.room address values)
          (values.drop (q.room address values)) := by
  have hSlot : slot (build pageSize limit (front ++ rest)).extents size front.length address =
      .fresh q.extent := by
    rw [slot_fresh hAhead, hNew, Page.extent_blank]
  rw [storeFrom, hSlot]
  · simp only
    rcases allocate_build pageSize limit front rest q.extent with
      ⟨hLarge, m', hAlloc⟩ | ⟨hSize, hAlloc⟩
    · rw [hAlloc]
      exact Or.inl ⟨hLarge, m', rfl⟩
    · refine Or.inr ⟨hSize, ?_⟩
      have hBlank : Page.blank q.extent = q := by rw [hNew, Page.extent_blank]
      rw [hBlank] at hAlloc
      rw [hAlloc]
      simp only [Page.extent_base]
      rw [fill_build hBase hStop]
      simp
  · exact hSome

end Rounds

/-- The values left over after a page start where the page ends, if there are any. -/
theorem Page.stop_le_of_rest {p : Page} {address : Nat} {values : List Int64}
    (hBase : p.base ≤ address) (hStop : address < p.stop)
    (hRest : values.drop (p.room address values) ≠ []) :
    p.stop ≤ address + p.room address values := by
  rcases Page.room_full hBase hStop values with hAll | hFull
  · rw [hAll, List.drop_length] at hRest
    exact absurd rfl hRest
  · omega

/-- **A `Spread` is what the walk does**, given rounds for the pages and values ahead. -/
theorem Spread.storeFrom_eq {pageSize limit : Int64} {size stop address : Nat}
    {pages result : List Page} {values : List Int64}
    (h : Spread size stop pages address values result) {rounds : Nat} {front : List Page}
    (hRounds : pages.length + values.length ≤ rounds) (hFront : lastStop front = stop) :
    storeFrom rounds (build pageSize limit (front ++ pages)) size front.length address values =
      .ok () (build pageSize limit (front ++ result)) := by
  induction h generalizing rounds front with
  | done =>
    cases rounds with
    | zero => rfl
    | succ rounds => rw [storeFrom]; exact Nat.succ_ne_zero rounds
  | @pass _ _ p _ _ _ hSome hBase hStop _ ih =>
    obtain ⟨rounds, rfl⟩ : ∃ n, rounds = n + 1 :=
      ⟨rounds - 1, by rw [List.length_cons] at hRounds; omega⟩
    rw [storeFrom_pass hSome hBase hStop, ih (by rw [List.length_cons] at hRounds; omega)
      (lastStop_concat front p), List.append_assoc, List.singleton_append]
  | @held _ address p _ _ values hSome hBase hStop _ ih =>
    have hPos := Page.room_pos hBase hStop hSome
    have hLe := Page.room_le_length p address values
    rw [List.length_cons] at hRounds
    obtain ⟨rounds, rfl⟩ : ∃ n, rounds = n + 1 := ⟨rounds - 1, by omega⟩
    rw [storeFrom_held hSome hBase hStop, ih (by rw [List.length_drop]; omega)
      (by rw [lastStop_concat, Page.write_stop]), List.append_assoc, List.singleton_append]
  | @fresh _ address q _ _ values hSome hAhead hNew hFits hSize _ ih =>
    have hStop : address < q.stop := hFits.lt_stop
    have hPos := Page.room_pos hFits.base_le hStop hSome
    have hLe := Page.room_le_length q address values
    obtain ⟨rounds, rfl⟩ : ∃ n, rounds = n + 1 := ⟨rounds - 1, by omega⟩
    rw [← hFront] at hNew
    rcases storeFrom_fresh hSome hAhead hNew hFits.base_le hStop with ⟨hLarge, _⟩ | ⟨_, hRound⟩
    · omega
    · rw [hRound, ih (by rw [List.length_drop]; omega) (by rw [lastStop_concat, Page.write_stop]),
        List.append_assoc, List.singleton_append]

/-- **Every walk is a `Spread`**, unless the page size is too large for a block and a page cannot be
made. -/
theorem spread_or_crash {pageSize limit : Int64} {rounds size : Nat} {front rest : List Page}
    {address : Nat} {values : List Int64} (hSize : 0 < size)
    (hRounds : rest.length + values.length ≤ rounds) (hTop : address + values.length ≤ addressStop)
    (hTail : values ≠ [] → rest = [] → lastStop front ≤ address) :
    (∃ result, Spread size (lastStop front) rest address values result) ∨
    largestBlock < size ∧
      ∃ m', storeFrom rounds (build pageSize limit (front ++ rest)) size front.length address
        values = .error (.crash .allocation) m' := by
  -- Each round passes a page or stores a value, so the pages and values ahead bound the rounds.
  induction rounds generalizing front rest address values with
  | zero =>
    obtain rfl : values = [] := List.length_eq_zero_iff.mp (by omega)
    exact Or.inl ⟨rest, .done _ _ _⟩
  | succ rounds ih =>
    by_cases hSome : values = []
    · subst hSome
      exact Or.inl ⟨rest, .done _ _ _⟩
    -- The rest of the walk, once the page `p` stands at the position and has taken its values.
    have hAfter : ∀ (p : Page) (later : List Page), p.base ≤ address → address < p.stop →
        later.length ≤ rest.length →
        (∃ result, Spread size p.stop later (address + p.room address values)
          (values.drop (p.room address values)) result) ∨
        largestBlock < size ∧
          ∃ m', storeFrom rounds
            (build pageSize limit (front ++ [p.write address values] ++ later)) size
            (front ++ [p.write address values]).length (address + p.room address values)
            (values.drop (p.room address values)) = .error (.crash .allocation) m' := by
      intro p later hBase hStop hLater
      have hPos := Page.room_pos hBase hStop hSome
      have hLe := Page.room_le_length p address values
      have hNext := @ih (front ++ [p.write address values]) later
        (address + p.room address values) (values.drop (p.room address values))
        (by rw [List.length_drop]; omega) (by rw [List.length_drop]; omega) fun hRest _ => by
          rw [lastStop_concat, Page.write_stop]
          exact Page.stop_le_of_rest hBase hStop hRest
      rw [lastStop_concat, Page.write_stop] at hNext
      exact hNext
    by_cases hAhead : ∀ base ∈ nextBase rest, address < base
    · have hLength := List.length_pos_iff.mpr hSome
      obtain ⟨q, hNew⟩ :
          ∃ q, q = Page.blank (newExtent size (lastStop front) (nextBase rest) address) := ⟨_, rfl⟩
      have hFits : Fits (lastStop front) (nextBase rest) address q.extent := by
        rw [hNew, Page.extent_blank]
        refine newExtent_fits hSize (by omega) hAhead fun hEnd => hTail hSome ?_
        simpa [nextBase] using hEnd
      have hStop : address < q.stop := hFits.lt_stop
      rcases storeFrom_fresh hSome hAhead hNew hFits.base_le hStop with
        ⟨hLarge, hCrash⟩ | ⟨hBlock, hRound⟩
      · have hLe : q.extent.size ≤ size := by
          rw [hNew, Page.extent_blank]
          exact newExtent_size_le _ _ _ _
        exact Or.inr ⟨Nat.lt_of_lt_of_le hLarge hLe, hCrash⟩
      · rw [hRound]
        rcases hAfter q rest hFits.base_le hStop (Nat.le_refl _) with ⟨result, hSpread⟩ | hCrash
        · exact Or.inl ⟨_, .fresh hSome hAhead hNew hFits hBlock hSpread⟩
        · exact Or.inr hCrash
    · cases rest with
      | nil => simp at hAhead
      | cons p later =>
        have hBase : p.base ≤ address := by simpa using hAhead
        by_cases hStop : p.stop ≤ address
        · rw [storeFrom_pass hSome hBase hStop]
          have hNext := @ih (front ++ [p]) later address values
            (by rw [List.length_cons] at hRounds; omega) hTop
            (fun _ _ => by rw [lastStop_concat]; exact hStop)
          rcases hNext with ⟨result, hSpread⟩ | hCrash
          · rw [lastStop_concat] at hSpread
            exact Or.inl ⟨_, .pass hSome hBase hStop hSpread⟩
          · exact Or.inr hCrash
        · have hInside : address < p.stop := by omega
          rw [storeFrom_held hSome hBase hInside]
          rcases hAfter p later hBase hInside (by simp) with ⟨result, hSpread⟩ | hCrash
          · exact Or.inl ⟨_, .held hSome hBase hInside hSpread⟩
          · exact Or.inr hCrash

/-! ### Stores -/

/-- The page size that is in force: the default stands in for one that is not positive. -/
def effectiveSize (pageSize : Int64) : Int64 := if pageSize ≤ 0 then defaultPageSize else pageSize

/-- The number of cells of a page that is not cut. -/
def pageCells (pageSize : Int64) : Nat := (effectiveSize pageSize).toNatClampNeg

theorem pageCells_pos (pageSize : Int64) : 0 < pageCells pageSize := by
  unfold pageCells effectiveSize
  by_cases h : pageSize ≤ 0
  · rw [if_pos h]
    decide
  · rw [if_neg h, Int64.toNatClampNeg_pos_iff]
    exact Int64.not_le.mp h

theorem store_nil (m : Memory) (address : Int64) : m.store address [] = .ok () m := rfl

theorem store_refused {m : Memory} {address : Int64} {values : List Int64} {f : Fault}
    (hSome : values ≠ []) (h : checkRange m.limit .store address values.length = .error f) :
    m.store address values = .error (.fault f) m := by
  rw [store, if_neg (by simpa using hSome), h]

/-- The walk of a store on `pages`, from the page that the search finds. -/
def Walk (size : Nat) (pages : List Page) (address : Nat) (values : List Int64)
    (result : List Page) : Prop :=
  Spread size (lastStop (pages.take (found pages address))) (pages.drop (found pages address))
    address values result

/-- The pages after a store whose walk ends with `result`. -/
def rebuilt (pages : List Page) (address : Nat) (result : List Page) : List Page :=
  pages.take (found pages address) ++ result

theorem length_take_found (pages : List Page) (a : Nat) :
    (pages.take (found pages a)).length = found pages a := by
  by_cases hEmpty : pages = []
  · subst hEmpty
    rfl
  · rw [List.length_take]
    exact Nat.min_eq_left (Nat.le_of_lt (found_lt hEmpty a))

section Store

variable {pageSize limit address : Int64} {pages : List Page} {values : List Int64}

/-- A store that is not refused starts its walk at the page that the search finds. -/
theorem store_eq_storeFrom (hSome : values ≠ []) (hAccepts : Accepts limit address values.length) :
    (build pageSize limit pages).store address values =
      storeFrom (pages.length + values.length)
        (build (effectiveSize pageSize) limit (pages.take (found pages address.toNatClampNeg) ++
          pages.drop (found pages address.toNatClampNeg))) (pageCells pageSize)
        (pages.take (found pages address.toNatClampNeg)).length address.toNatClampNeg values := by
  have hCheck :
      checkRange (build pageSize limit pages).limit .store address values.length = .ok () :=
    checkRange_ok_iff.mpr hAccepts
  have hSize : (if (build pageSize limit pages).pageSize ≤ 0 then
        { build pageSize limit pages with pageSize := defaultPageSize }
      else build pageSize limit pages) = build (effectiveSize pageSize) limit pages := by
    by_cases h : pageSize ≤ 0
    · rw [if_pos (show (build pageSize limit pages).pageSize ≤ 0 from h), effectiveSize, if_pos h]
      rfl
    · rw [if_neg (show ¬(build pageSize limit pages).pageSize ≤ 0 from h), effectiveSize, if_neg h]
  have hExtents : (build (effectiveSize pageSize) limit pages).extents.size = pages.length := by
    simp [build]
  rw [store, if_neg (by simpa using hSome), hCheck, List.take_append_drop, length_take_found]
  simp only
  rw [hSize, hExtents]
  rfl

/-- **A store that is not refused makes its walk.** -/
theorem Walk.store_eq {result : List Page} (hSome : values ≠ [])
    (hAccepts : Accepts limit address values.length)
    (h : Walk (pageCells pageSize) pages address.toNatClampNeg values result) :
    (build pageSize limit pages).store address values =
      .ok () (build (effectiveSize pageSize) limit
        (rebuilt pages address.toNatClampNeg result)) := by
  rw [store_eq_storeFrom hSome hAccepts]
  exact h.storeFrom_eq (by rw [List.length_drop]; omega) rfl

theorem drop_found_eq_nil {a : Nat} (h : pages.drop (found pages a) = []) : pages = [] := by
  by_cases hEmpty : pages = []
  · exact hEmpty
  · have := found_lt hEmpty a
    rw [List.drop_eq_nil_iff] at h
    omega

/-- **A store that is not refused has a walk**, unless a page cannot be made. -/
theorem walk_or_crash (hSome : values ≠ []) (hAccepts : Accepts limit address values.length) :
    (∃ result, Walk (pageCells pageSize) pages address.toNatClampNeg values result) ∨
    largestBlock < pageCells pageSize ∧
      ∃ m', (build pageSize limit pages).store address values =
        .error (.crash .allocation) m' := by
  have hNat := toNat_eq_toInt hAccepts.1
  have hTop := hAccepts.2.1
  rw [store_eq_storeFrom hSome hAccepts]
  refine spread_or_crash (pageCells_pos pageSize) (by rw [List.length_drop]; omega) (by omega) ?_
  intro _ hEnd
  rw [drop_found_eq_nil hEnd]
  exact Nat.zero_le _

end Store

end HullRobot.Memory
